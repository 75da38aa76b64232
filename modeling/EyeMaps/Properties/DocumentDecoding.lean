import EyeMaps.Properties.Documents

/-!
# Which documents decode to a location

The decoder walks a document with two stacks and ends at the first thing it cannot use.  Each
conformance is given a shape and obeys it (`Obeys`): `unbox` returns a value of that shape and
restores the stacks, or it fails, no value has the shape, and the error blames a part of the object.
The proofs follow the programs with the rules for computations that restore their state.

`decode_outcome` compares the decoder with the description of documents.
-/

namespace EyeMaps

open Framework

variable {K α : Type}

/-! ## Inside a value -/

namespace FirestoreDecoder

/-- The decoder while it is in `value`. -/
def inside (d : FirestoreDecoder K) (value : NSObject K) : FirestoreDecoder K :=
  { d with storage := d.storage ++ [value] }

/-- The decoder while it reads the part of a key. -/
def below (d : FirestoreDecoder K) (key : CodingKey) : FirestoreDecoder K :=
  { d with codingPath := d.codingPath ++ [key] }

theorem topContainer_inside (d : FirestoreDecoder K) (value : NSObject K) :
    topContainer (d.inside value) = .ok (value, d.inside value) := by
  simp [topContainer, inside]

theorem popContainer_inside (d : FirestoreDecoder K) (value : NSObject K) :
    popContainer (d.inside value) = .ok ((), d) := by
  unfold popContainer inside
  split
  next h => exact absurd h (by simp)
  next => simp

theorem popKey_below (d : FirestoreDecoder K) (key : CodingKey) :
    popKey (d.below key) = .ok ((), d) := by
  simp [popKey, below]

theorem keyedContainer_inside (keyType : String) (entries : List (String × NSObject K))
    (d : FirestoreDecoder K) : keyedContainer keyType (d.inside (.dictionary entries)) =
      .ok (entries, d.inside (.dictionary entries)) := by
  show Except.bind (topContainer (d.inside (.dictionary entries))) _ = _
  rw [topContainer_inside]
  rfl

end FirestoreDecoder

/-! ## The conformances obey their shapes -/

section Laws

open FirestoreDecoder

variable [Field K] [LinearOrder K] {runtime : Runtime K}

/-- What a failure to read `value` at `path` promises: an error blames a part of it, which is no
value and does not stop the program; the program stops where `stops`. -/
def Rejects (runtime : Runtime K) (path : List CodingKey) (value : NSObject K) (P : α → Prop)
    (stops : Prop) : Failure → Prop
  | .thrown error => error.Blames runtime path value ∧ (∀ a, ¬ P a) ∧ ¬ stops
  | .trap => stops

/-- `unbox` gives a value of the shape, or nothing for a null. -/
def Obeys (runtime : Runtime K) (unbox : NSObject K → DecodeM K (Option α)) (shape : Shape K α)
    (stops : NSObject K → Prop) : Prop :=
  ∀ value d, Yields (unbox value) d
    (fun decoded =>
      match decoded with
      | some a => shape value a
      | none => value = .leaf .null ∧ (∀ a, ¬ shape value a) ∧ ¬ stops value)
    (Rejects runtime d.codingPath value (shape value) (stops value))

/-- `unbox` gives a value of the shape. -/
def ObeysAlways (runtime : Runtime K) (unbox : NSObject K → DecodeM K (Option α))
    (shape : Shape K α) (stops : NSObject K → Prop) : Prop :=
  ∀ value d, Yields (unbox value) d (fun decoded => ∃ a, decoded = some a ∧ shape value a)
    (Rejects runtime d.codingPath value (shape value) (stops value))

/-- Nothing stops the program. -/
def never : NSObject K → Prop := fun _ => False

theorem ObeysAlways.obeys {unbox : NSObject K → DecodeM K (Option α)} {shape : Shape K α}
    {stops : NSObject K → Prop} (h : ObeysAlways runtime unbox shape stops) :
    Obeys runtime unbox shape stops := by
  refine fun value d => (h value d).mono ?_ fun _ => id
  rintro decoded ⟨a, rfl, ha⟩
  exact ha

/-- A failure to read a part that never stops the program, for the whole. -/
theorem Rejects.of_part {failure : Failure} {β : Type} {path path' : List CodingKey}
    {value value' : NSObject K} {P : α → Prop} {P' : β → Prop} {stops : Prop}
    (h : Rejects runtime path value P False failure)
    (hblames : ∀ error : DecodingError, error.Blames runtime path value →
      error.Blames runtime path' value')
    (hP : ∀ b, P' b → ∃ a, P a) (hstops : stops → ∃ a, P a) :
    Rejects runtime path' value' P' stops failure := by
  cases failure with
  | trap => exact h.elim
  | thrown error =>
    obtain ⟨hblame, hnone, -⟩ := h
    refine ⟨hblames error hblame, fun b hb => ?_, fun hs => ?_⟩
    · obtain ⟨a, ha⟩ := hP b hb
      exact hnone a ha
    · obtain ⟨a, ha⟩ := hstops hs
      exact hnone a ha

theorem yields_mismatch {value : NSObject K} {d : FirestoreDecoder K} {type : String}
    {post : α → Prop} {β : Type} {P : β → Prop} (hnull : value ≠ .leaf .null)
    (hP : ∀ b, ¬ P b) :
    Yields (throwMismatch runtime type value) d post
      (Rejects runtime d.codingPath value P False) :=
  .throw ⟨blames_here rfl ⟨hnull, .inl rfl⟩, hP, id⟩

/-! ### Objects that are boxed directly -/

theorem obeys_unboxString : Obeys runtime (unboxString runtime) Shape.string never := by
  intro value d
  unfold unboxString
  split
  next => exact .pure ⟨rfl, by simp [Shape.string], id⟩
  next => exact .pure rfl
  next hnull hstring =>
    exact yields_mismatch (fun h => hnull h) fun s hs => hstring s hs

theorem obeys_unboxDouble :
    Obeys runtime (unboxDouble runtime) (Shape.double runtime) never := by
  intro value d
  unfold unboxDouble
  split
  next => exact .pure ⟨rfl, by simp [Shape.double], id⟩
  next number => exact .pure ⟨number, rfl, rfl⟩
  next hnull hnumber =>
    exact yields_mismatch (fun h => hnull h) fun x ⟨number, hvalue, _⟩ => hnumber number hvalue

theorem obeys_unboxData : Obeys runtime (unboxData runtime) Shape.data never := by
  intro value d
  unfold unboxData
  split
  next => exact .pure ⟨rfl, by simp [Shape.data], id⟩
  next => exact .pure rfl
  next hnull hdata =>
    exact yields_mismatch (fun h => hnull h) fun x hx => hdata x hx

theorem obeys_unboxFloat :
    Obeys runtime (unboxFloat runtime) (Shape.float runtime) never := by
  intro value d
  unfold unboxFloat
  split
  next => exact .pure ⟨rfl, by simp [Shape.float, Shape.double], id⟩
  next number =>
    by_cases hfits : |number.doubleValue runtime| ≤ runtime.greatestFiniteMagnitude
    · rw [if_pos hfits]
      exact .pure ⟨_, ⟨number, rfl, rfl⟩, hfits, rfl⟩
    · rw [if_neg hfits]
      refine .throw ⟨blames_here rfl (.inr ⟨number, rfl, hfits⟩), ?_, id⟩
      rintro x ⟨double, ⟨number', hnumber, rfl⟩, hfits', -⟩
      cases hnumber
      exact hfits hfits'
  next hnull hnumber =>
    exact yields_mismatch (fun h => hnull h)
      fun x ⟨_, ⟨number, hvalue, _⟩, _⟩ => hnumber number hvalue

/-! ### Objects that `init(from:)` reads from the storage -/

/-- `init(from:)` runs inside the value; what it reads there is what `unbox` gives. -/
theorem obeysAlways_decode {passthrough : NSObject K → Option α} {m : DecodeM K α}
    {shape : Shape K α} {stops : NSObject K → Prop}
    (hpass : ∀ value a, passthrough value = some a → shape value a)
    (h : ∀ value (d : FirestoreDecoder K), passthrough value = none →
      Yields m (d.inside value) (shape value)
        (Rejects runtime d.codingPath value (shape value) (stops value))) :
    ObeysAlways runtime (unbox (.decode passthrough m)) shape stops := by
  intro value d
  simp only [unbox]
  split
  next a ha => exact .pure ⟨a, rfl, hpass value a ha⟩
  next hnone =>
    have hinside : Yields (underContainer value m) d (shape value)
        (Rejects runtime d.codingPath value (shape value) (stops value)) :=
      .bracket rfl (popContainer_inside d value) (h value d hnone)
    exact hinside.bind fun a ha => .pure ⟨a, rfl, ha⟩

theorem yields_decodeSingleString (value : NSObject K) (d : FirestoreDecoder K) :
    Yields (decodeSingleString runtime) (d.inside value) (Shape.string value)
      (Rejects runtime d.codingPath value (Shape.string value) False) := by
  refine .bind_ok (topContainer_inside d value) ?_
  split
  next => exact .throw ⟨blames_here rfl rfl, by simp [Shape.string], id⟩
  next hnull =>
    refine (obeys_unboxString value (d.inside value)).bind fun decoded hdecoded => ?_
    cases decoded with
    | some string => exact .pure hdecoded
    | none => exact absurd hdecoded.1 fun h => hnull h

theorem yields_decodeSingleFloat (value : NSObject K) (d : FirestoreDecoder K) :
    Yields (decodeSingleFloat runtime) (d.inside value) (Shape.float runtime value)
      (Rejects runtime d.codingPath value (Shape.float runtime value) False) := by
  refine .bind_ok (topContainer_inside d value) ?_
  split
  next => exact .throw ⟨blames_here rfl rfl, by simp [Shape.float, Shape.double], id⟩
  next hnull =>
    refine (obeys_unboxFloat value (d.inside value)).bind fun decoded hdecoded => ?_
    cases decoded with
    | some float => exact .pure hdecoded
    | none => exact absurd hdecoded.1 fun h => hnull h

theorem obeysAlways_string :
    ObeysAlways runtime (unbox (DecodableType.string runtime)) Shape.string never :=
  obeysAlways_decode (by simp) fun value d _ => yields_decodeSingleString value d

theorem obeysAlways_float :
    ObeysAlways runtime (unbox (DecodableType.float runtime)) (Shape.float runtime) never :=
  obeysAlways_decode (by simp) fun value d _ => yields_decodeSingleFloat value d

theorem obeysAlways_uuid :
    ObeysAlways runtime (unbox (DecodableType.uuid runtime)) Shape.uuid never := by
  refine obeysAlways_decode (by simp) fun value d _ => ?_
  have hstring : Yields (decodeSingleString runtime) (d.inside value) (Shape.string value)
      (Rejects runtime d.codingPath value (Shape.uuid value) False) := by
    refine (yields_decodeSingleString value d).mono (fun _ => id) fun failure hfailure => ?_
    exact hfailure.of_part (fun _ => id) (fun id ⟨s, hs, _⟩ => ⟨s, hs⟩) False.elim
  refine hstring.bind fun string hvalue => ?_
  split
  next id hid => exact .pure ⟨string, hvalue, hid⟩
  next hnone =>
    refine .throw ⟨blames_here rfl (.inl ⟨string, hvalue, hnone⟩), ?_, id⟩
    rintro id ⟨s, hs, hid⟩
    have hsame : string = s := Shape.rightUnique_string hvalue hs
    rw [hsame, hid] at hnone
    cases hnone

/-! ### Arrays -/

theorem yields_unkeyedContainer (value : NSObject K) (d : FirestoreDecoder K) {P : α → Prop}
    (hP : ∀ a, P a → ∃ elements, value = .array elements) :
    Yields unkeyedContainer (d.inside value) (fun elements => value = .array elements)
      (Rejects runtime d.codingPath value P False) := by
  refine .bind_ok (topContainer_inside d value) ?_
  split
  next => exact .throw ⟨blames_here rfl rfl, fun a ha => by simpa using hP a ha, id⟩
  next elements => exact .pure rfl
  next hnull harray =>
    refine .throw
      ⟨blames_here rfl ⟨fun h => hnull h, .inr (.inr ⟨rfl, fun _ => harray _⟩)⟩, ?_, id⟩
    intro a ha
    obtain ⟨elements, helements⟩ := hP a ha
    exact harray elements helements

/-- An element is read below its index. -/
theorem yields_decodeElement {c : DecodableType K α} {shape : Shape K α}
    (h : ObeysAlways runtime (unbox c) shape never) (type : String) {all : List (NSObject K)}
    {i : ℕ} {element : NSObject K} (helement : all[i]? = some element) (d : FirestoreDecoder K) :
    Yields (decodeElement type c i element) d (shape element)
      (Rejects runtime d.codingPath (.array all) (shape element) False) := by
  refine .bracket rfl (popKey_below d (.index i)) ?_
  refine Yields.bind ((h element (d.below (.index i))).mono (fun _ => id) ?_) ?_
  · intro failure hfailure
    have hchild : Document.child? (.array all) (CodingKey.index i).step = some element := helement
    exact hfailure.of_part (fun _ => .of_child hchild) (fun a ha => ⟨a, ha⟩) False.elim
  · rintro decoded ⟨a, rfl, ha⟩
    exact .pure ha

/-- The loop over the elements that are left. -/
theorem yields_decodeElements {c : DecodableType K α} {shape : Shape K α}
    (h : ObeysAlways runtime (unbox c) shape never) (type : String) {all : List (NSObject K)}
    (d : FirestoreDecoder K) (elements : List (NSObject K)) (i : ℕ)
    (hdrop : all.drop i = elements) :
    Yields (decodeElements type c i elements) d (List.Forall₂ shape elements)
      (Rejects runtime d.codingPath (.array all) (List.Forall₂ shape elements) False) := by
  induction elements generalizing i with
  | nil => exact .pure .nil
  | cons element elements ih =>
    have helement : all[i]? = some element := by
      rw [← List.head?_drop, hdrop, List.head?_cons]
    have hrest : all.drop (i + 1) = elements := by
      rw [← List.tail_drop, hdrop, List.tail_cons]
    refine Yields.bind ((yields_decodeElement h type helement d).mono (fun _ => id) ?_) ?_
    · intro failure hfailure
      refine hfailure.of_part (fun _ => id) (fun values hvalues => ?_) False.elim
      obtain ⟨a, rest, ha, -, -⟩ := List.forall₂_cons_left_iff.1 hvalues
      exact ⟨a, ha⟩
    · intro a ha
      refine Yields.bind ((ih (i + 1) hrest).mono (fun _ => id) ?_) ?_
      · intro failure hfailure
        refine hfailure.of_part (fun _ => id) (fun values hvalues => ?_) False.elim
        obtain ⟨b, rest, -, hrest', -⟩ := List.forall₂_cons_left_iff.1 hvalues
        exact ⟨rest, hrest'⟩
      · exact fun values hvalues => .pure (.cons ha hvalues)

/-- An array decodes if and only if its elements do. -/
theorem ObeysAlways.array {c : DecodableType K α} {shape : Shape K α}
    (h : ObeysAlways runtime (unbox c) shape never) (type : String) :
    ObeysAlways runtime (unbox (DecodableType.array type c)) shape.array never := by
  refine obeysAlways_decode (by simp) fun value d _ => ?_
  have hcontainer : Yields unkeyedContainer (d.inside value)
      (fun elements => value = .array elements)
      (Rejects runtime d.codingPath value (shape.array value) False) :=
    yields_unkeyedContainer value d fun values ⟨elements, helements, _⟩ => ⟨elements, helements⟩
  refine hcontainer.bind ?_
  rintro elements rfl
  refine (yields_decodeElements h type (d.inside (.array elements)) elements 0 rfl).mono ?_ ?_
  · exact fun values hvalues => ⟨elements, rfl, hvalues⟩
  · intro failure hfailure
    refine hfailure.of_part (fun _ => id) ?_ False.elim
    rintro values ⟨elements', helements, hvalues⟩
    cases helements
    exact ⟨values, hvalues⟩

/-! ### Dictionaries -/

theorem yields_keyedContainer (keyType : String) (value : NSObject K) (d : FirestoreDecoder K)
    {P : α → Prop} {stops : Prop} (hP : ∀ a, P a → ∃ entries, value = .dictionary entries)
    (hstops : stops → ∃ entries, value = .dictionary entries) :
    Yields (keyedContainer keyType) (d.inside value) (fun entries => value = .dictionary entries)
      (Rejects runtime d.codingPath value P stops) := by
  refine .bind_ok (topContainer_inside d value) ?_
  split
  next =>
    exact .throw ⟨blames_here rfl rfl, fun a ha => by simpa using hP a ha, by simpa using hstops⟩
  next entries => exact .pure rfl
  next hnull hdictionary =>
    have hnot : ¬ ∃ entries, value = .dictionary entries := fun ⟨entries, hentries⟩ =>
      hdictionary entries hentries
    exact .throw ⟨blames_here rfl ⟨fun h => hnull h, .inr (.inl ⟨rfl, fun _ => hdictionary _⟩)⟩,
      fun a ha => hnot (hP a ha), fun hs => hnot (hstops hs)⟩

theorem yields_requireKey (shape : Shape K α) (stops : NSObject K → Prop) (keyType key : String)
    (entries : List (String × NSObject K)) (d : FirestoreDecoder K) :
    Yields (requireKey keyType entries (.field key)) d
      (fun entry => entries.lookup key = some entry)
      (Rejects runtime d.codingPath (.dictionary entries) (shape.field key entries)
        (∃ o, entries.lookup key = some o ∧ stops o)) := by
  unfold requireKey
  split
  next entry hentry => exact .pure hentry
  next hmissing =>
    have hnone : ∀ o, entries.lookup key ≠ some o := by
      intro o ho
      have hnone : entries.lookup key = none := hmissing
      rw [hnone] at ho
      cases ho
    exact .throw ⟨blames_here rfl ⟨entries, rfl, hmissing⟩, fun a ⟨o, ho, _⟩ => hnone o ho,
      fun ⟨o, ho, _⟩ => hnone o ho⟩

/-- A field is read below its key, if it is there. -/
theorem yields_decodeForKey {read : NSObject K → DecodeM K (Option α)} {shape : Shape K α}
    {stops : NSObject K → Prop} (h : Obeys runtime read shape stops) (type keyType key : String)
    (entries : List (String × NSObject K)) (d : FirestoreDecoder K) :
    Yields (decodeForKey type keyType read entries (.field key)) d (shape.field key entries)
      (Rejects runtime d.codingPath (.dictionary entries) (shape.field key entries)
        (∃ o, entries.lookup key = some o ∧ stops o)) := by
  refine (yields_requireKey shape stops keyType key entries d).bind fun entry hentry => ?_
  have hchild : Document.child? (.dictionary entries) (CodingKey.field key).step = some entry :=
    hentry
  have hsame : ∀ o, entries.lookup key = some o → o = entry := fun o ho => by
    rw [hentry] at ho
    exact (Option.some.inj ho).symm
  refine .bracket rfl (popKey_below d (.field key)) ?_
  refine Yields.bind ((h entry (d.below (.field key))).mono (fun _ => id) ?_) ?_
  · intro failure hfailure
    cases failure with
    | thrown error =>
      obtain ⟨hblames, hnone, hgoes⟩ := hfailure
      exact ⟨hblames.of_child hchild, fun a ⟨o, ho, ha⟩ => hnone a (hsame o ho ▸ ha),
        fun ⟨o, ho, hs⟩ => hgoes (hsame o ho ▸ hs)⟩
    | trap => exact ⟨entry, hentry, hfailure⟩
  · intro decoded hdecoded
    cases decoded with
    | some a => exact .pure ⟨entry, hentry, hdecoded⟩
    | none =>
      obtain ⟨hnull, hnone, hgoes⟩ := hdecoded
      have hhere : (DecodingError.valueNotFound type ⟨(d.below (.field key)).codingPath,
          "Expected " ++ type ++ " value but found null instead."⟩).Blames runtime
          (d.codingPath ++ [.field key]) entry := blames_here rfl hnull
      exact .throw ⟨hhere.of_child hchild, fun a ⟨o, ho, ha⟩ => hnone a (hsame o ho ▸ ha),
        fun ⟨o, ho, hs⟩ => hgoes (hsame o ho ▸ hs)⟩

/-- A program that reads a field first, where the whole has the field. -/
theorem yields_field {read : NSObject K → DecodeM K (Option α)} {shape : Shape K α}
    (h : Obeys runtime read shape never) {type keyType key : String}
    {entries : List (String × NSObject K)} {d : FirestoreDecoder K} {β : Type} {P : β → Prop}
    {stops : Prop} (hP : ∀ b, P b → ∃ a, shape.field key entries a)
    (hstops : stops → ∃ a, shape.field key entries a) {k : α → DecodeM K β} {post : β → Prop}
    (hk : ∀ a, shape.field key entries a →
      Yields (k a) d post (Rejects runtime d.codingPath (.dictionary entries) P stops)) :
    Yields (decodeForKey type keyType read entries (.field key) >>= k) d post
      (Rejects runtime d.codingPath (.dictionary entries) P stops) := by
  refine Yields.bind ((yields_decodeForKey h type keyType key entries d).mono (fun _ => id) ?_) hk
  intro failure hfailure
  have hpart : Rejects runtime d.codingPath (.dictionary entries) (shape.field key entries) False
      failure := by
    cases failure with
    | thrown error => exact ⟨hfailure.1, hfailure.2.1, id⟩
    | trap => exact hfailure.choose_spec.2
  exact hpart.of_part (fun _ => id) hP hstops

/-! ### Geopoints and locations -/

/-- A geopoint is passed through, or made of its two coordinates; the program stops where they are
off the earth. -/
theorem obeysAlways_geoPoint :
    ObeysAlways runtime (unbox (DecodableType.geoPoint runtime)) (Shape.geoPoint runtime)
      (OffEarth runtime) := by
  refine obeysAlways_decode ?_ fun value d hpass => ?_
  · intro value g hg
    split at hg
    next => exact .inl (by rw [Option.some.inj hg])
    next => cases hg
  · have hdictionary : ∀ g, Shape.geoPoint runtime value g →
        ∃ entries, value = .dictionary entries := by
      rintro g (hg | ⟨entries, hentries, -⟩)
      · rw [hg] at hpass
        cases hpass
      · exact ⟨entries, hentries⟩
    refine (yields_keyedContainer "GeoPointKeys" value d hdictionary
      fun ⟨entries, _, _, hentries, _⟩ => ⟨entries, hentries⟩).bind ?_
    rintro entries rfl
    have hkeys : ∀ g, Shape.geoPoint runtime (.dictionary entries) g →
        (Shape.double runtime).field "latitude" entries g.latitude ∧
          (Shape.double runtime).field "longitude" entries g.longitude := by
      rintro g (hg | ⟨entries', hentries', hlat, hlong, -⟩)
      · cases hg
      · cases hentries'
        exact ⟨hlat, hlong⟩
    have hoffKeys : OffEarth runtime (.dictionary entries) → ∃ latitude longitude,
        (Shape.double runtime).field "latitude" entries latitude ∧
          (Shape.double runtime).field "longitude" entries longitude := by
      rintro ⟨entries', latitude, longitude, hentries', hlat, hlong, -⟩
      cases hentries'
      exact ⟨latitude, longitude, hlat, hlong⟩
    refine yields_field obeys_unboxDouble (fun g hg => ⟨_, (hkeys g hg).1⟩)
      (fun hoff => ⟨_, (hoffKeys hoff).choose_spec.choose_spec.1⟩) fun latitude hlatitude => ?_
    refine yields_field obeys_unboxDouble (fun g hg => ⟨_, (hkeys g hg).2⟩)
      (fun hoff => ⟨_, (hoffKeys hoff).choose_spec.choose_spec.2⟩) fun longitude hlongitude => ?_
    split
    next g hg =>
      obtain ⟨hearth, rfl⟩ := GeoPoint.create_eq_some_iff.1 hg
      exact .pure (.inr ⟨entries, rfl, hlatitude, hlongitude, hearth⟩)
    next hnone =>
      have hoff : ¬ OnEarth latitude longitude := fun hearth => by
        rw [GeoPoint.create_eq_some_iff.2 ⟨hearth, rfl⟩] at hnone
        cases hnone
      have hstops : OffEarth runtime (.dictionary entries) :=
        ⟨entries, latitude, longitude, rfl, hlatitude, hlongitude, hoff⟩
      exact .throw hstops

/-- The fields of a location are read one after the other. -/
theorem yields_locationFields (entries : List (String × NSObject K)) (d : FirestoreDecoder K) :
    Yields (DecodableType.locationFields runtime entries) d (IsDocumentOf runtime entries)
      (Rejects runtime d.codingPath (.dictionary entries) (IsDocumentOf runtime entries)
        (IsTrap runtime entries)) := by
  have hstrings : ObeysAlways runtime (unbox (.array "String" (.string runtime)))
      Shape.string.array never := obeysAlways_string.array "String"
  have hfloats : ObeysAlways runtime (unbox (.array "Float" (.float runtime)))
      (Shape.float runtime).array never := obeysAlways_float.array "Float"
  refine yields_field obeysAlways_uuid.obeys (fun _ hl => ⟨_, hl.id⟩)
    (fun ⟨⟨_, hl⟩, _⟩ => ⟨_, hl.id⟩) fun uuid hid => ?_
  refine yields_field obeys_unboxDouble (fun _ hl => ⟨_, hl.lat⟩)
    (fun ⟨⟨_, hl⟩, _⟩ => ⟨_, hl.lat⟩) fun lat hlat => ?_
  refine yields_field obeys_unboxDouble (fun _ hl => ⟨_, hl.long⟩)
    (fun ⟨⟨_, hl⟩, _⟩ => ⟨_, hl.long⟩) fun long hlong => ?_
  refine yields_field obeys_unboxString (fun _ hl => ⟨_, hl.title⟩)
    (fun ⟨⟨_, hl⟩, _⟩ => ⟨_, hl.title⟩) fun title htitle => ?_
  refine yields_field obeys_unboxString (fun _ hl => ⟨_, hl.subtitle⟩)
    (fun ⟨⟨_, hl⟩, _⟩ => ⟨_, hl.subtitle⟩) fun subtitle hsubtitle => ?_
  refine yields_field hstrings.obeys (fun _ hl => ⟨_, hl.directions⟩)
    (fun ⟨⟨_, hl⟩, _⟩ => ⟨_, hl.directions⟩) fun directions hdirections => ?_
  refine yields_field obeys_unboxData (fun _ hl => ⟨_, hl.worldData⟩)
    (fun ⟨⟨_, hl⟩, _⟩ => ⟨_, hl.worldData⟩) fun worldData hworldData => ?_
  refine yields_field hfloats.obeys (fun _ hl => ⟨_, hl.transformationsX⟩)
    (fun ⟨⟨_, hl⟩, _⟩ => ⟨_, hl.transformationsX⟩) fun transformationsX hx => ?_
  refine yields_field hfloats.obeys (fun _ hl => ⟨_, hl.transformationsY⟩)
    (fun ⟨⟨_, hl⟩, _⟩ => ⟨_, hl.transformationsY⟩) fun transformationsY hy => ?_
  refine yields_field hfloats.obeys (fun _ hl => ⟨_, hl.transformationsZ⟩)
    (fun ⟨⟨_, hl⟩, _⟩ => ⟨_, hl.transformationsZ⟩) fun transformationsZ hz => ?_
  have hfields : ∀ location, HasFields runtime entries ⟨uuid, lat, long, title, subtitle,
      directions, worldData, transformationsX, transformationsY, transformationsZ, location⟩ :=
    fun _ => ⟨hid, hlat, hlong, htitle, hsubtitle, hdirections, hworldData, hx, hy, hz⟩
  -- the last field, which may stop the program
  refine Yields.bind ((yields_decodeForKey obeysAlways_geoPoint.obeys "GeoPoint" "CodingKeys"
    "location" entries d).mono (fun _ => id) ?_) fun location hlocation => ?_
  · intro failure hfailure
    cases failure with
    | thrown error =>
      obtain ⟨hblames, hnone, hgoes⟩ := hfailure
      exact ⟨hblames, fun l hl => hnone _ hl.location, fun htrap => hgoes htrap.2⟩
    | trap => exact ⟨⟨_, hfields ⟨0, 0⟩⟩, hfailure⟩
  · exact .pure ⟨hfields location, hlocation⟩

/-- What `init(from:)` of `Location` makes of a dictionary. -/
theorem yields_location (entries : List (String × NSObject K)) (d : FirestoreDecoder K) :
    Yields (unbox (DecodableType.location runtime) (.dictionary entries)) d
      (fun decoded => ∃ l, decoded = some l ∧ IsDocumentOf runtime entries l)
      (Rejects runtime d.codingPath (.dictionary entries) (IsDocumentOf runtime entries)
        (IsTrap runtime entries)) := by
  have hinside : Yields (do
      let entries ← keyedContainer "CodingKeys"
      DecodableType.locationFields runtime entries) (d.inside (.dictionary entries))
      (IsDocumentOf runtime entries) (Rejects runtime d.codingPath (.dictionary entries)
        (IsDocumentOf runtime entries) (IsTrap runtime entries)) :=
    .bind_ok (keyedContainer_inside "CodingKeys" entries d)
      (yields_locationFields entries (d.inside (.dictionary entries)))
  exact (Yields.bracket rfl (popContainer_inside d (.dictionary entries)) hinside).bind
    fun l hl => .pure ⟨l, rfl, hl⟩

/-! ## The decoder and the description of documents -/

/-- What `decode` returns for a document, in three cases. -/
theorem decode_location (runtime : Runtime K) (entries : List (String × NSObject K)) :
    (∃ l, decode "Location" (.location runtime) entries = .ok l ∧
        IsDocumentOf runtime entries l) ∨
      (decode "Location" (.location runtime) entries = .error .trap ∧ IsTrap runtime entries) ∨
      ∃ error, decode "Location" (.location runtime) entries = .error (.thrown error) ∧
        error.Blames runtime [] (.dictionary entries) ∧ (∀ l, ¬ IsDocumentOf runtime entries l) ∧
        ¬ IsTrap runtime entries := by
  rcases @yields_location K _ _ runtime entries ⟨[.dictionary entries], []⟩ with
    ⟨decoded, d, hok, ⟨l, rfl, hl⟩, rfl⟩ | ⟨failure, herror, h⟩
  · exact .inl ⟨l, by rw [decode, hok], hl⟩
  · cases failure with
    | trap => exact .inr (.inl ⟨by rw [decode, herror], h⟩)
    | thrown error => exact .inr (.inr ⟨error, by rw [decode, herror], h⟩)

/-- A document decodes to a location if and only if it is a document of it. -/
theorem decode_eq_ok_iff {entries : List (String × NSObject K)} {l : Location K} :
    decode "Location" (.location runtime) entries = .ok l ↔ IsDocumentOf runtime entries l := by
  rcases decode_location runtime entries with ⟨l', hok, hl'⟩ | ⟨htrap, h⟩ |
      ⟨error, herror, -, h, -⟩
  · rw [hok, Except.ok.injEq]
    constructor
    · rintro rfl
      exact hl'
    · exact fun hl => hl'.unique hl
  · rw [htrap]
    exact ⟨nofun, fun hl => (h.not_isDocumentOf l hl).elim⟩
  · rw [herror]
    exact ⟨nofun, fun hl => (h l hl).elim⟩

/-- A document stops the program if and only if it is a trap. -/
theorem decode_eq_trap_iff {entries : List (String × NSObject K)} :
    decode "Location" (.location runtime) entries = .error .trap ↔ IsTrap runtime entries := by
  rcases decode_location runtime entries with ⟨l, hok, hl⟩ | ⟨htrap, h⟩ | ⟨error, herror, -, -, h⟩
  · rw [hok]
    exact ⟨nofun, fun h => (h.not_isDocumentOf l hl).elim⟩
  · exact ⟨fun _ => h, fun _ => htrap⟩
  · rw [herror]
    exact ⟨nofun, fun htrap => (h htrap).elim⟩

/-- Neither the order of the entries nor entries of other keys matter for what a document decodes
to, or whether it stops the program. -/
theorem decode_of_sameFields (runtime : Runtime K) {entries entries' : List (String × NSObject K)}
    (h : SameFields entries entries') :
    (∀ l, decode "Location" (.location runtime) entries = .ok l ↔
        decode "Location" (.location runtime) entries' = .ok l) ∧
      (decode "Location" (.location runtime) entries = .error .trap ↔
        decode "Location" (.location runtime) entries' = .error .trap) := by
  simp only [decode_eq_ok_iff, decode_eq_trap_iff]
  exact ⟨fun l => ⟨h.isDocumentOf, h.symm.isDocumentOf⟩, h.isTrap, h.symm.isTrap⟩

/-- The hallway in another order and with one more entry, as another version of the app may write
it. -/
theorem decode_of_sameFields_hallway :
    let entries := EncodableType.entriesOf hallway
    let entries' := setEntry "visits" (.leaf (.number (.integer 3))) entries.reverse
    (∀ l, decode "Location" (.location .exact) entries = .ok l ↔
        decode "Location" (.location .exact) entries' = .ok l) ∧
      (decode "Location" (.location .exact) entries = .error .trap ↔
        decode "Location" (.location .exact) entries' = .error .trap) := by
  refine decode_of_sameFields .exact fun key hkey => ?_
  simp only [Location.codingKeys, List.mem_cons, List.not_mem_nil, or_false] at hkey
  rcases hkey with rfl | rfl | rfl | rfl | rfl | rfl | rfl | rfl | rfl | rfl | rfl <;> rfl

end Laws

end EyeMaps
