import EyeMaps.Properties.DocumentRoundTrip
import EyeMaps.Properties.ParsedData

/-!
# What is read back from Firestore

The dictionary of a snapshot is the image of the one that was set, at every path: timestamps are in
microseconds, dates are timestamps, numbers of a character type are Booleans, and sentinels are
missing (`readBack_of_parsedSetData`).  Of these only the numbers matter to the decoder, which takes
numbers, strings, data and geopoints for the fields of a location; so a document decodes as it did
before it went to Firestore unless it has such a number where a field needs one (`decode_readBack`),
and a location comes back rounded (`location_readBack`).
-/

namespace EyeMaps

open Framework Document FirestoreDecoder UserDataConverter

variable {K α : Type}

/-! ## The dictionary of a snapshot -/

section Converted

variable (database : DatabaseId)

/-- A snapshot shows every value of a document at its path. -/
theorem image_convertedValue {t : Document (FieldScalar K)} (hproper : t.Proper) :
    Image (fun a => some (convertedScalar database a)) t (convertedValue database t) := by
  induction t using Document.induction with
  | leaf a => exact image_leaf_iff.2 ⟨_, rfl, by rw [convertedValue]⟩
  | array elements ih =>
    have helements := dictionaries_array_iff.1 hproper
    rw [convertedValue, convertedArray_eq_map]
    refine image_array_iff.2 ⟨_, rfl, List.forall₂_map_right_iff.2 ?_⟩
    exact List.forall₂_same.2 fun t ht => ih t ht (helements t ht)
  | dictionary entries ih =>
    obtain ⟨hdistinct, hentries⟩ := dictionaries_dictionary_iff.1 hproper
    rw [convertedValue, convertedEntries_eq_map database hdistinct]
    refine image_dictionary_iff.2 ⟨_, rfl, fun key => ?_⟩
    rw [lookup_map_snd]
    cases hlookup : entries.lookup key with
    | none => exact .absent
    | some t =>
      have hmem := mem_of_lookup_eq_some hlookup
      exact .kept (ih (key, t) hmem (hentries (key, t) hmem))

/-- What becomes of a scalar that is set and read back. -/
def readBack (a : Scalar K) : Option (Scalar K) := (stored a).map (convertedScalar database)

variable {database} {input : List (String × NSObject K)}

theorem image_readBack {parsed : ParsedSetData K} (hkeyed : WellKeyed (dictionary input))
    (h : parsedSetData database input = .ok parsed) :
    Image (readBack database) (dictionary input)
      (dictionary (convertedObject database parsed.data)) := by
  rcases parsedSetData_cases database input with ⟨parsed', s, hok, -, hparsed⟩ | ⟨_, herror, -⟩
  · rw [h] at hok
    cases hok
    have himage : Image stored (dictionary input) (dictionary parsed.data.entries) :=
      imageEntry_some_iff.1 (hparsed.image hkeyed)
    have hconverted := image_convertedValue database (Sorted.proper parsed.data.sorted)
    rw [convertedValue] at hconverted
    have hcompose : readBack database =
        fun a : Scalar K => (stored a).bind fun b => some (convertedScalar database b) := by
      funext a
      rw [readBack, Option.map_eq_bind]
      rfl
    rw [hcompose]
    exact himage.trans hconverted
  · rw [h] at herror
    cases herror

theorem mem_fieldTransforms_iff {parsed : ParsedSetData K} (hkeyed : WellKeyed (dictionary input))
    (h : parsedSetData database input = .ok parsed) (path : FieldPath)
    (operation : TransformOperation K) :
    (path, operation) ∈ parsed.fieldTransforms ↔
      (dictionary input).Somewhere fun steps part =>
        Leaves ((ParseContext.root .set).descend steps) part (.transform path operation) := by
  rcases parsedSetData_cases database input with
    ⟨parsed', s, hok, htransforms, hparsed⟩ | ⟨_, herror, -⟩
  · rw [h] at hok
    cases hok
    rw [htransforms]
    refine (hparsed.collected hkeyed (.transform path operation)).trans (or_iff_right ?_)
    exact List.not_mem_nil
  · rw [h] at herror
    cases herror

/-- A counter that goes up, a guest who joins the others, and the times of a visit. -/
def visit : List (String × NSObject ℚ) :=
  [("visits", .leaf (.fieldValue (.increment (.integer 1)))),
    ("guests",
      .leaf (.fieldValue (.arrayUnion [.dictionary [("age", .leaf (.number (.char 30)))]]))),
    ("last", .dictionary [("arrival", .leaf (.date ⟨1600000000, 1234567⟩)),
      ("departure", .leaf (.timestamp ⟨1600000000, 1234567⟩))])]

theorem wellKeyed_visit : WellKeyed (dictionary visit) := by
  simp only [visit, wellKeyed_dictionary_iff, wellKeyed_leaf_iff, List.forall_mem_cons]
  refine ⟨by decide, ?_, ?_, ⟨by decide, ?_, ?_, ?_⟩, ?_⟩
  · rintro _ ⟨⟩ _ helement
    cases helement
  · rintro _ ⟨⟩
    refine List.forall_mem_singleton.2 (dictionaries_dictionary_iff.2 ⟨by decide, ?_⟩)
    exact List.forall_mem_singleton.2 (dictionaries_leaf _)
  all_goals exact fun _ h => by cases h

end Converted

/-! ## What the decoder sees of it -/

section Kept

variable [Field K] [LinearOrder K] {f : Scalar K → Option (Scalar K)}

/-- The object is not a number of a character type, for which a Boolean is stored. -/
def NotCharacter (o : NSObject K) : Prop := ∀ value, o ≠ .leaf (.number (.char value))

/-- Every element has the property, if the object is an array. -/
def Elementwise (P : NSObject K → Prop) (o : NSObject K) : Prop :=
  ∀ elements, o = .array elements → ∀ t ∈ elements, P t

/-- The object under the key has the property, if there is one. -/
def Under (key : String) (P : NSObject K → Prop) (entries : List (String × NSObject K)) : Prop :=
  ∀ o, entries.lookup key = some o → P o

/-- The map changes no scalar that a field of a location can be made of, and makes none, but for the
numbers of a character type, of which it makes no numbers. -/
structure Faithful (f : Scalar K → Option (Scalar K)) : Prop where
  number : ∀ number a, f a = some (.number number) ↔ a = .number number ∧ NotCharacter (.leaf a)
  number_ne_none : ∀ number, f (.number number) ≠ none
  string : ∀ string a, f a = some (.string string) ↔ a = .string string
  data : ∀ data a, f a = some (.data data) ↔ a = .data data
  geoPoint : ∀ geoPoint a, f a = some (.geoPoint geoPoint) ↔ a = .geoPoint geoPoint

omit [Field K] [LinearOrder K] in
theorem faithful_readBack (database : DatabaseId) : Faithful (readBack (K := K) database) := by
  constructor
  case number_ne_none =>
    intro number
    cases number <;> simp [readBack, stored]
  all_goals
    intro b a
    cases a with
    | number number =>
      cases number <;> simp [readBack, stored, convertedScalar, NotCharacter]
    | _ => simp [readBack, stored, convertedScalar]

/-- The shape is one of the image of an object if and only if it is one of the object and that has
the property, and it is one of no scalar that has no image. -/
structure Shape.Kept (f : Scalar K → Option (Scalar K)) (P : NSObject K → Prop)
    (shape : Shape K α) : Prop where
  image : ∀ {o o'}, Image f o o' → ∀ a, shape o' a ↔ shape o a ∧ P o
  dropped : ∀ {s}, f s = none → ∀ a, ¬ shape (.leaf s) a

namespace Shape.Kept

variable {P : NSObject K → Prop}

omit [Field K] [LinearOrder K] in
theorem field {shape : Shape K α} (h : shape.Kept f P) {key : String}
    {entries entries' : List (String × NSObject K)}
    (himage : ImageEntry f (entries.lookup key) (entries'.lookup key)) (a : α) :
    shape.field key entries' a ↔ shape.field key entries a ∧ Under key P entries := by
  unfold Shape.field Under
  generalize entries.lookup key = r at himage ⊢
  generalize entries'.lookup key = r' at himage ⊢
  cases himage with
  | absent => simp
  | @dropped s hs =>
    constructor
    · rintro ⟨o, ho, -⟩
      cases ho
    · rintro ⟨⟨o, ho, ha⟩, -⟩
      cases ho
      exact absurd ha (h.dropped hs a)
  | kept himage => simp [h.image himage]

omit [Field K] [LinearOrder K] in
/-- A shape that asks for one kind of scalar. -/
theorem leaf {g : α → Scalar K} (hg : ∀ a s, f s = some (g a) ↔ s = g a ∧ P (.leaf s))
    (hne : ∀ a, f (g a) ≠ none) : Shape.Kept f P fun o a => o = .leaf (g a) where
  image := by
    intro o o' himage a
    cases o with
    | leaf s =>
      obtain ⟨s', hs, rfl⟩ := image_leaf_iff.1 himage
      rw [Document.leaf.injEq, Document.leaf.injEq, ← hg, hs, Option.some.injEq]
    | array elements =>
      obtain ⟨elements', rfl, -⟩ := image_array_iff.1 himage
      simp
    | dictionary entries =>
      obtain ⟨entries', rfl, -⟩ := image_dictionary_iff.1 himage
      simp
  dropped := fun {s} hs a h => by
    cases h
    exact hne a hs

omit [Field K] [LinearOrder K] in
/-- A shape that asks for a kind of scalar that the map neither changes nor makes. -/
theorem leaf_of_iff {g : α → Scalar K} (hg : ∀ a s, f s = some (g a) ↔ s = g a) :
    Shape.Kept f (fun _ => True) fun o a => o = .leaf (g a) := by
  refine leaf (fun a s => ?_) fun a => ?_
  · rw [hg, and_true]
  · rw [(hg a (g a)).2 rfl]
    exact Option.some_ne_none _

omit [Field K] [LinearOrder K] in
/-- A shape that asks for one of several values of another. -/
theorem exists_and {β : Type} {shape : Shape K β} (h : shape.Kept f P) (R : β → α → Prop) :
    Shape.Kept f P fun o a => ∃ b, shape o b ∧ R b a where
  image := fun himage a => by
    rw [← exists_and_right]
    refine exists_congr fun b => ?_
    rw [h.image himage, and_right_comm]
  dropped := fun hs _ ⟨b, hb, _⟩ => h.dropped hs b hb

omit [Field K] [LinearOrder K] in
theorem array {shape : Shape K α} (h : shape.Kept f P) : shape.array.Kept f (Elementwise P) where
  image := by
    intro o o' himage values
    cases o with
    | leaf s =>
      obtain ⟨s', -, rfl⟩ := image_leaf_iff.1 himage
      simp [Shape.array]
    | dictionary entries =>
      obtain ⟨entries', rfl, -⟩ := image_dictionary_iff.1 himage
      simp [Shape.array]
    | array elements =>
      obtain ⟨elements', rfl, helements⟩ := image_array_iff.1 himage
      have hP : Elementwise P (.array elements) ↔ ∀ t ∈ elements, P t := by simp [Elementwise]
      rw [Shape.array_iff, Shape.array_iff, hP]
      clear himage hP
      induction helements generalizing values with
      | nil => simp
      | cons hhead _ ih =>
        cases values with
        | nil => simp
        | cons value values =>
          rw [List.forall₂_cons, List.forall₂_cons, List.forall_mem_cons, and_and_and_comm]
          exact and_congr (h.image hhead value) (ih values)
  dropped := fun hs values ⟨elements, helements, _⟩ => by cases helements

end Shape.Kept

/-- The coordinates under the keys of a dictionary. -/
def Shape.coordinates (runtime : Runtime K) : Shape K (K × K) := fun o p =>
  ∃ entries, o = .dictionary entries ∧ (double runtime).field "latitude" entries p.1 ∧
    (double runtime).field "longitude" entries p.2

theorem Shape.geoPoint_iff {runtime : Runtime K} {o : NSObject K} {g : GeoPoint K} :
    geoPoint runtime o g ↔ o = .leaf (.geoPoint g) ∨
      coordinates runtime o (g.latitude, g.longitude) ∧ OnEarth g.latitude g.longitude := by
  refine or_congr_right ⟨?_, ?_⟩
  · rintro ⟨entries, ho, hlat, hlong, hearth⟩
    exact ⟨⟨entries, ho, hlat, hlong⟩, hearth⟩
  · rintro ⟨⟨entries, ho, hlat, hlong⟩, hearth⟩
    exact ⟨entries, ho, hlat, hlong, hearth⟩

theorem offEarth_iff_coordinates {runtime : Runtime K} {o : NSObject K} :
    OffEarth runtime o ↔ ∃ p, Shape.coordinates runtime o p ∧ ¬ OnEarth p.1 p.2 := by
  constructor
  · rintro ⟨entries, latitude, longitude, ho, hlat, hlong, hoff⟩
    exact ⟨(latitude, longitude), ⟨entries, ho, hlat, hlong⟩, hoff⟩
  · rintro ⟨p, ⟨entries, ho, hlat, hlong⟩, hoff⟩
    exact ⟨entries, p.1, p.2, ho, hlat, hlong, hoff⟩

attribute [mk_iff] HasFields

/-- Neither coordinate is a number of a character type, if the object is a dictionary. -/
def CoordinatesKept (o : NSObject K) : Prop :=
  ∀ entries, o = .dictionary entries →
    Under "latitude" NotCharacter entries ∧ Under "longitude" NotCharacter entries

/-- No number under the key of a field but the last is of a character type. -/
@[mk_iff]
structure FieldNumbersKept (entries : List (String × NSObject K)) : Prop where
  lat : Under "lat" NotCharacter entries
  long : Under "long" NotCharacter entries
  transformationsX : Under "transformationsX" (Elementwise NotCharacter) entries
  transformationsY : Under "transformationsY" (Elementwise NotCharacter) entries
  transformationsZ : Under "transformationsZ" (Elementwise NotCharacter) entries

/-- No number that a field of a location is made of is of a character type. -/
structure NumbersKept (entries : List (String × NSObject K)) : Prop
    extends FieldNumbersKept entries where
  location : Under "location" CoordinatesKept entries

namespace Faithful

omit [Field K] [LinearOrder K] in
theorem kept_string (h : Faithful f) : (Shape.string (K := K)).Kept f fun _ => True :=
  .leaf_of_iff h.string

omit [Field K] [LinearOrder K] in
theorem kept_data (h : Faithful f) : (Shape.data (K := K)).Kept f fun _ => True :=
  .leaf_of_iff h.data

omit [Field K] [LinearOrder K] in
theorem kept_uuid (h : Faithful f) : (Shape.uuid (K := K)).Kept f fun _ => True :=
  h.kept_string.exists_and fun s id => UUID.parse s = some id

variable (runtime : Runtime K)

omit [Field K] [LinearOrder K] in
theorem kept_double (h : Faithful f) : (Shape.double runtime).Kept f NotCharacter :=
  (Shape.Kept.leaf h.number h.number_ne_none).exists_and
    fun number x => x = number.doubleValue runtime

theorem kept_float (h : Faithful f) : (Shape.float runtime).Kept f NotCharacter :=
  (h.kept_double runtime).exists_and fun double x =>
    |double| ≤ runtime.greatestFiniteMagnitude ∧ x = runtime.float double

omit [Field K] [LinearOrder K] in
theorem kept_coordinates (h : Faithful f) :
    (Shape.coordinates runtime).Kept f CoordinatesKept where
  image := by
    intro o o' himage p
    cases o with
    | leaf s =>
      obtain ⟨s', -, rfl⟩ := image_leaf_iff.1 himage
      simp [Shape.coordinates]
    | array elements =>
      obtain ⟨elements', rfl, -⟩ := image_array_iff.1 himage
      simp [Shape.coordinates]
    | dictionary entries =>
      obtain ⟨entries', rfl, hkeys⟩ := image_dictionary_iff.1 himage
      have hlatitude := (h.kept_double runtime).field (hkeys "latitude") p.1
      have hlongitude := (h.kept_double runtime).field (hkeys "longitude") p.2
      simp [Shape.coordinates, CoordinatesKept, hlatitude, hlongitude, and_and_and_comm]
  dropped := by
    rintro s - p ⟨entries, hentries, -⟩
    cases hentries

theorem kept_geoPoint (h : Faithful f) : (Shape.geoPoint runtime).Kept f CoordinatesKept where
  image := by
    intro o o' himage g
    have hplain : o = .leaf (.geoPoint g) → CoordinatesKept o := by
      rintro rfl entries hentries
      cases hentries
    rw [Shape.geoPoint_iff, Shape.geoPoint_iff, himage.eq_leaf_iff (h.geoPoint g),
      (h.kept_coordinates runtime).image himage, and_right_comm, or_and_right,
      and_iff_left_of_imp hplain]
  dropped := by
    rintro s hs g (hg | ⟨entries, hentries, -⟩)
    · cases hg
      rw [(h.geoPoint g _).2 rfl] at hs
      cases hs
    · cases hentries

theorem kept_offEarth (h : Faithful f) :
    Shape.Kept f CoordinatesKept fun o (_ : Unit) => OffEarth runtime o := by
  simp only [offEarth_iff_coordinates]
  exact (h.kept_coordinates runtime).exists_and fun p _ => ¬ OnEarth p.1 p.2

/-! ### Documents -/

variable {runtime} {entries entries' : List (String × NSObject K)}

/-- The fields of a location are those of the images, and so is what is missing of them, unless a
number is of a character type. -/
theorem hasFields_iff (h : Faithful f)
    (himage : ∀ key, ImageEntry f (entries.lookup key) (entries'.lookup key)) (l : Location K) :
    HasFields runtime entries' l ↔ HasFields runtime entries l ∧ FieldNumbersKept entries := by
  have huuid := fun key => h.kept_uuid.field (himage key)
  have hdouble := fun key => (h.kept_double runtime).field (himage key)
  have hstring := fun key => h.kept_string.field (himage key)
  have hstrings := fun key => h.kept_string.array.field (himage key)
  have hdata := fun key => h.kept_data.field (himage key)
  have hfloats := fun key => (h.kept_float runtime).array.field (himage key)
  have htrue : ∀ key, Under key (fun _ => True) entries := fun _ _ _ => trivial
  have hall : ∀ key, Under key (Elementwise fun _ => True) entries :=
    fun _ _ _ _ _ _ _ => trivial
  rw [EyeMaps.hasFields_iff, EyeMaps.hasFields_iff, fieldNumbersKept_iff]
  simp only [huuid, hdouble, hstring, hstrings, hdata, hfloats, htrue, hall, and_true]
  tauto

theorem isDocumentOf_iff (h : Faithful f)
    (himage : ∀ key, ImageEntry f (entries.lookup key) (entries'.lookup key)) (l : Location K) :
    IsDocumentOf runtime entries' l ↔ IsDocumentOf runtime entries l ∧ NumbersKept entries := by
  have hfields : HasFields runtime entries' l ↔
      HasFields runtime entries l ∧ FieldNumbersKept entries := h.hasFields_iff himage l
  have hplace := (h.kept_geoPoint runtime).field (himage "location") l.location
  constructor
  · intro hl
    obtain ⟨hl', hkept⟩ := hfields.1 hl.toHasFields
    obtain ⟨hlocation, hcoordinates⟩ := hplace.1 hl.location
    exact ⟨⟨hl', hlocation⟩, hkept, hcoordinates⟩
  · rintro ⟨hl, hkept⟩
    exact ⟨hfields.2 ⟨hl.toHasFields, hkept.toFieldNumbersKept⟩,
      hplace.2 ⟨hl.location, hkept.location⟩⟩

theorem isTrap_iff (h : Faithful f)
    (himage : ∀ key, ImageEntry f (entries.lookup key) (entries'.lookup key)) :
    IsTrap runtime entries' ↔ IsTrap runtime entries ∧ NumbersKept entries := by
  have hfields : ∀ l, HasFields runtime entries' l ↔
      HasFields runtime entries l ∧ FieldNumbersKept entries := h.hasFields_iff himage
  have hplace := (h.kept_offEarth runtime).field (himage "location") ()
  constructor
  · rintro ⟨⟨l, hl⟩, hoff⟩
    obtain ⟨hl', hkept⟩ := (hfields l).1 hl
    obtain ⟨hoff', hcoordinates⟩ := hplace.1 hoff
    exact ⟨⟨⟨l, hl'⟩, hoff'⟩, hkept, hcoordinates⟩
  · rintro ⟨⟨⟨l, hl⟩, hoff⟩, hkept⟩
    exact ⟨⟨l, (hfields l).2 ⟨hl, hkept.toFieldNumbersKept⟩⟩,
      hplace.2 ⟨hoff, hkept.location⟩⟩

end Faithful

end Kept

/-! ## The document of a location -/

section OfLocation

/-- A scalar that is nowhere faulty, and no number of a character type. -/
structure Plain (a : Scalar K) : Prop where
  not_faulty : ∀ database context failure, ¬ Faulty database context (.leaf a) failure
  notCharacter : NotCharacter (.leaf a)

theorem plain_string (string : String) : Plain (.string string : Scalar K) :=
  ⟨fun _ _ _ h => (by cases h), fun _ h => by cases h⟩

theorem plain_double (value : K) : Plain (.number (.double value)) :=
  ⟨fun _ _ _ h => (by cases h), fun _ h => by cases h⟩

theorem plain_data (data : Data) : Plain (.data data : Scalar K) :=
  ⟨fun _ _ _ h => (by cases h), fun _ h => by cases h⟩

theorem plain_geoPoint (geoPoint : GeoPoint K) : Plain (.geoPoint geoPoint) :=
  ⟨fun _ _ _ h => (by cases h), fun _ h => by cases h⟩

/-- A sentinel would be faulty in an argument of a query. -/
theorem Plain.ne_fieldValue {a : Scalar K} (h : Plain a) (fieldValue : FIRFieldValue K) :
    a ≠ .fieldValue fieldValue := by
  rintro rfl
  exact h.not_faulty ⟨"", ""⟩ (.root .argument) _ (.sentinelNotWritten rfl)

/-- The document holds plain scalars and arrays of them. -/
theorem forall_entriesOf {P : NSObject K → Prop} (hleaf : ∀ a, Plain a → P (.leaf a))
    (harray : ∀ values : List (Scalar K), (∀ a ∈ values, Plain a) →
      P (.array (values.map .leaf))) (l : Location K) :
    ∀ p ∈ EncodableType.entriesOf l, P p.2 := by
  have hstrings : ∀ strings, P (EncodableType.stringArray strings) := by
    intro strings
    have h := harray (strings.map .string) (List.forall_mem_map.2 fun s _ => plain_string s)
    rwa [List.map_map] at h
  have hnumbers : ∀ numbers, P (EncodableType.numberArray numbers) := by
    intro numbers
    have h := harray (numbers.map fun x => .number (.double x))
      (List.forall_mem_map.2 fun x _ => plain_double x)
    rwa [List.map_map] at h
  simp only [EncodableType.entriesOf, List.forall_mem_cons]
  exact ⟨hleaf _ (plain_string _), hleaf _ (plain_double _), hleaf _ (plain_double _),
    hleaf _ (plain_string _), hleaf _ (plain_string _), hstrings _, hleaf _ (plain_data _),
    hnumbers _, hnumbers _, hnumbers _, hleaf _ (plain_geoPoint _), fun _ h => (by cases h)⟩

theorem Plain.wellKeyed {a : Scalar K} (h : Plain a) : WellKeyed (.leaf a) :=
  wellKeyed_leaf_iff.2 fun fieldValue ha => absurd ha (h.ne_fieldValue fieldValue)

theorem wellKeyed_entriesOf (l : Location K) :
    WellKeyed (dictionary (EncodableType.entriesOf l)) := by
  have hkeys : DistinctKeys (EncodableType.entriesOf l) := by
    show Location.codingKeys.Nodup
    decide
  refine wellKeyed_dictionary_iff.2 ⟨hkeys, forall_entriesOf (fun _ ha => ha.wellKeyed) ?_ l⟩
  exact fun values hvalues => wellKeyed_array_iff.2
    (List.forall_mem_map.2 fun a ha => (hvalues a ha).wellKeyed)

/-- All its numbers are of the type `Double`. -/
theorem numbersKept_entriesOf (l : Location K) : NumbersKept (EncodableType.entriesOf l) := by
  have hvalues := forall_entriesOf
    (P := fun t => NotCharacter t ∧ Elementwise NotCharacter t ∧ CoordinatesKept t)
    (fun _ ha => ⟨ha.notCharacter, fun _ h => (by cases h), fun _ h => (by cases h)⟩)
    (fun values hvalues => by
      refine ⟨fun _ h => (by cases h), ?_, fun _ h => (by cases h)⟩
      rintro _ ⟨⟩
      exact List.forall_mem_map.2 fun a ha => (hvalues a ha).notCharacter) l
  have hunder : ∀ key o, (EncodableType.entriesOf l).lookup key = some o →
      NotCharacter o ∧ Elementwise NotCharacter o ∧ CoordinatesKept o :=
    fun key o ho => hvalues (key, o) (mem_of_lookup_eq_some ho)
  exact ⟨⟨fun o ho => (hunder _ o ho).1, fun o ho => (hunder _ o ho).1,
    fun o ho => (hunder _ o ho).2.1, fun o ho => (hunder _ o ho).2.1,
    fun o ho => (hunder _ o ho).2.1⟩, fun o ho => (hunder _ o ho).2.2⟩

/-! ### No part of it is faulty -/

section Clean

variable {database : DatabaseId} {context : ParseContext}

theorem Plain.clean {a : Scalar K} (h : Plain a) : Clean database context (.leaf a) :=
  everywhere_leaf_iff.2 fun failure => h.not_faulty database _ failure

theorem clean_array_of_plain {values : List (Scalar K)} (h : ∀ a ∈ values, Plain a)
    (hcontext : context.arrayElement = false) :
    Clean database context (.array (values.map .leaf)) := by
  refine everywhere_array_iff.2 ⟨fun failure hfaulty => ?_, fun i t hi => ?_⟩
  · cases hfaulty with
    | nestedArray helement => exact Bool.false_ne_true (hcontext.symm.trans helement)
  · obtain ⟨a, ha, rfl⟩ := List.mem_map.1 (List.mem_of_getElem? hi)
    show Clean database (context.child (.index i)) (.leaf a)
    exact (h a ha).clean

theorem clean_entriesOf (l : Location K) :
    Clean database (.root .set) (.dictionary (EncodableType.entriesOf l)) := by
  have hnames : ∀ name ∈ Location.codingKeys,
      name ≠ "" ∧ ParseContext.isReserved name = false := by decide
  have hname : ∀ {name t}, (name, t) ∈ EncodableType.entriesOf l →
      name ≠ "" ∧ ParseContext.isReserved name = false :=
    fun hmem => hnames _ (List.mem_map_of_mem (f := Prod.fst) hmem)
  have hvalues := forall_entriesOf
    (P := fun t => ∀ context : ParseContext, context.arrayElement = false →
      Clean database context t)
    (fun _ ha _ _ => ha.clean) (fun _ hvalues _ => clean_array_of_plain hvalues) l
  refine everywhere_dictionary_iff.2 ⟨fun failure hfaulty => ?_, fun key t hmem => ?_⟩
  · cases hfaulty with
    | emptyName hmem => exact (hname hmem).1 rfl
    | reservedName hmem _ hreserved =>
      exact Bool.false_ne_true ((hname hmem).2.symm.trans hreserved)
  · exact hvalues (key, t) hmem _ rfl

end Clean

/-! ### No part of it is a sentinel -/

section Transforms

variable {path : FieldPath} {operation : TransformOperation K}

theorem Plain.not_leaves_transform {context : ParseContext} {a : Scalar K} (h : Plain a) :
    ¬ Leaves context (.leaf a) (.transform path operation) := by
  intro hleaves
  cases hleaves with
  | transform => exact h.ne_fieldValue _ rfl

theorem not_leaves_transform_array {context : ParseContext} {values : List (Scalar K)}
    (h : ∀ a ∈ values, Plain a) :
    ¬ (array (values.map .leaf)).Somewhere fun steps part =>
      Leaves (context.descend steps) part (.transform path operation) := by
  intro hsome
  rcases somewhere_array_iff.1 hsome with hleaves | ⟨i, t, hi, hleaves⟩
  · cases hleaves
  · obtain ⟨a, ha, rfl⟩ := List.mem_map.1 (List.mem_of_getElem? hi)
    exact (h a ha).not_leaves_transform (somewhere_leaf_iff.1 hleaves)

theorem not_leaves_transform_entriesOf (l : Location K) :
    ¬ (dictionary (EncodableType.entriesOf l)).Somewhere fun steps part =>
      Leaves ((ParseContext.root .set).descend steps) part (.transform path operation) := by
  intro hsome
  have hvalues := forall_entriesOf
    (P := fun t => ∀ context : ParseContext, ¬ t.Somewhere fun steps part =>
      Leaves (context.descend steps) part (.transform path operation))
    (fun _ ha _ h => ha.not_leaves_transform (somewhere_leaf_iff.1 h))
    (fun _ hvalues _ => not_leaves_transform_array hvalues) l
  rcases somewhere_dictionary_iff.1 hsome with hleaves | ⟨key, t, hmem, hleaves⟩
  · cases hleaves
  · exact hvalues (key, t) hmem _ hleaves

end Transforms

/-- Firestore accepts the document, and computes none of its fields. -/
theorem parsedSetData_entriesOf (database : DatabaseId) (l : Location K) :
    ∃ parsed, parsedSetData database (EncodableType.entriesOf l) = .ok parsed ∧
      parsed.fieldTransforms = [] := by
  rcases parsedSetData_cases database (EncodableType.entriesOf l) with
    ⟨parsed, _, hok, -, -⟩ | ⟨failure, -, hblamed⟩
  · refine ⟨parsed, hok, List.eq_nil_iff_forall_not_mem.2 fun (path, operation) hmem => ?_⟩
    exact not_leaves_transform_entriesOf l
      ((mem_fieldTransforms_iff (wellKeyed_entriesOf l) hok path operation).1 hmem)
  · exact (hblamed.not_clean (clean_entriesOf l)).elim

end OfLocation

/-! ## Through Firestore and back -/

section Decode

variable [Field K] [LinearOrder K] (runtime : Runtime K) {database : DatabaseId}
  {input : List (String × NSObject K)} {parsed : ParsedSetData K}

omit [Field K] [LinearOrder K] in
theorem imageEntry_readBack (hkeyed : WellKeyed (dictionary input))
    (h : parsedSetData database input = .ok parsed) (key : String) :
    ImageEntry (readBack database) (input.lookup key)
      ((convertedObject database parsed.data).lookup key) := by
  obtain ⟨entries', hentries', hkeys⟩ := image_dictionary_iff.1 (image_readBack hkeyed h)
  cases hentries'
  exact hkeys key

/-- A document that was set decodes, when it is read back, to the location that it decoded to
before, and stops the program if it did before, unless one of its numbers was of a character type:
then it does neither. -/
theorem decode_readBack (hkeyed : WellKeyed (dictionary input))
    (h : parsedSetData database input = .ok parsed) :
    (∀ l, decode "Location" (.location runtime) (convertedObject database parsed.data) = .ok l ↔
        decode "Location" (.location runtime) input = .ok l ∧ NumbersKept input) ∧
      (decode "Location" (.location runtime) (convertedObject database parsed.data) =
          .error .trap ↔
        decode "Location" (.location runtime) input = .error .trap ∧ NumbersKept input) := by
  have hfaithful : Faithful (readBack (K := K) database) := faithful_readBack database
  have himage := imageEntry_readBack hkeyed h
  simp only [decode_eq_ok_iff, decode_eq_trap_iff]
  exact ⟨fun l => hfaithful.isDocumentOf_iff himage l, hfaithful.isTrap_iff himage⟩

/-- The document of the hallway, decoded when it is read back. -/
theorem decode_readBack_hallway :
    ∃ parsed, parsedSetData ⟨"maps", "(default)"⟩ (EncodableType.entriesOf hallway) = .ok parsed ∧
      ((∀ l, decode "Location" (.location .exact)
            (convertedObject ⟨"maps", "(default)"⟩ parsed.data) = .ok l ↔
          decode "Location" (.location .exact) (EncodableType.entriesOf hallway) = .ok l ∧
            NumbersKept (EncodableType.entriesOf hallway)) ∧
        (decode "Location" (.location .exact)
            (convertedObject ⟨"maps", "(default)"⟩ parsed.data) = .error .trap ↔
          decode "Location" (.location .exact) (EncodableType.entriesOf hallway) =
              .error .trap ∧
            NumbersKept (EncodableType.entriesOf hallway))) := by
  obtain ⟨parsed, hok, -⟩ := parsedSetData_entriesOf ⟨"maps", "(default)"⟩ hallway
  exact ⟨parsed, hok, decode_readBack .exact (wellKeyed_entriesOf hallway) hok⟩

/-- A location that is encoded, set, read back and decoded comes back with its coordinates rounded,
if they are in range, and nothing else ever does; Firestore accepts it, and computes none of its
fields. -/
theorem location_readBack (database : DatabaseId) (l : Location K) :
    ∃ entries parsed, FirestoreEncoder.encode .location l = some (some entries) ∧
      parsedSetData database entries = .ok parsed ∧ parsed.fieldTransforms = [] ∧
        ∀ l',
          decode "Location" (.location runtime) (convertedObject database parsed.data) = .ok l' ↔
            l.InRange runtime ∧ l' = l.rounded runtime := by
  obtain ⟨parsed, hok, htransforms⟩ := parsedSetData_entriesOf database l
  refine ⟨_, parsed, FirestoreEncoder.encode_location l, hok, htransforms, fun l' => ?_⟩
  rw [decode_eq_ok_iff, ← isDocumentOf_entriesOf_iff]
  have himage := imageEntry_readBack (wellKeyed_entriesOf l) hok
  refine ((faithful_readBack database).isDocumentOf_iff himage l').trans ?_
  exact and_iff_left (numbersKept_entriesOf l)

end Decode

end EyeMaps
