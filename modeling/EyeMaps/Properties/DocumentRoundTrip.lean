import EyeMaps.Properties.DocumentDecoding

/-!
# A location that is written and read back

`setData(from:)` encodes a location, and whoever fetches the document decodes it.  It decodes if and
only if the recorded coordinates are in the range of `Float`, and then to the location with these
coordinates rounded (`decode_encode_eq_ok_iff`).  As they are `Float`s in the app, the location
comes back as it was.
-/

namespace EyeMaps

open Framework

variable {K α : Type}

/-! ## Entries of a document -/

theorem Shape.field_iff {shape : Shape K α} {key : String} {entries : List (String × NSObject K)}
    {o : NSObject K} (h : entries.lookup key = some o) {a : α} :
    shape.field key entries a ↔ shape o a := by
  constructor
  · rintro ⟨o', ho', ha⟩
    rw [h] at ho'
    cases ho'
    exact ha
  · exact fun ha => ⟨o, h, ha⟩

theorem Shape.array_iff {shape : Shape K α} {elements : List (NSObject K)} {values : List α} :
    shape.array (.array elements) values ↔ List.Forall₂ shape elements values := by
  constructor
  · rintro ⟨elements', helements, hvalues⟩
    cases helements
    exact hvalues
  · exact fun h => ⟨elements, rfl, h⟩

theorem stringArray_iff {strings values : List String} :
    (Shape.string (K := K)).array (EncodableType.stringArray strings) values ↔
      values = strings := by
  have hleaf : ∀ s s' : String, Shape.string (.leaf (.string s) : NSObject K) s' ↔ s = s' := by
    intro s s'
    simp [Shape.string]
  rw [EncodableType.stringArray, Shape.array_iff, List.forall₂_map_left_iff]
  simp only [hleaf]
  rw [List.forall₂_eq_eq_eq, eq_comm]

section Order

variable [Field K] [LinearOrder K] (runtime : Runtime K)

theorem numberArray_iff {numbers values : List K} :
    (Shape.float runtime).array (EncodableType.numberArray numbers) values ↔
      (∀ x ∈ numbers, |x| ≤ runtime.greatestFiniteMagnitude) ∧
        values = numbers.map runtime.float := by
  have hleaf : ∀ x y : K, Shape.float runtime (.leaf (.number (.double x))) y ↔
      |x| ≤ runtime.greatestFiniteMagnitude ∧ runtime.float x = y := by
    intro x y
    constructor
    · rintro ⟨double, ⟨number, hnumber, rfl⟩, hfits, rfl⟩
      cases hnumber
      exact ⟨hfits, rfl⟩
    · rintro ⟨hfits, rfl⟩
      exact ⟨x, ⟨.double x, rfl, rfl⟩, hfits, rfl⟩
  rw [EncodableType.numberArray, Shape.array_iff, List.forall₂_map_left_iff]
  simp only [hleaf]
  rw [List.forall₂_and_left]
  refine and_congr_right fun _ => ?_
  rw [eq_comm, ← List.forall₂_map_left_iff (R := Eq), List.forall₂_eq_eq_eq]

/-! ## The document of a location -/

/-- The coordinates that are recorded as `Float`s. -/
def Location.floats (l : Location K) : List K :=
  l.transformationsX ++ l.transformationsY ++ l.transformationsZ

/-- The location with its recorded coordinates rounded to `Float`. -/
def Location.rounded (l : Location K) : Location K :=
  { l with
    transformationsX := l.transformationsX.map runtime.float
    transformationsY := l.transformationsY.map runtime.float
    transformationsZ := l.transformationsZ.map runtime.float }

/-- The recorded coordinates are in the range of `Float`. -/
def Location.InRange (l : Location K) : Prop :=
  ∀ x ∈ l.floats, |x| ≤ runtime.greatestFiniteMagnitude

theorem Location.inRange_iff {l : Location K} :
    l.InRange runtime ↔
      (∀ x ∈ l.transformationsX, |x| ≤ runtime.greatestFiniteMagnitude) ∧
        (∀ x ∈ l.transformationsY, |x| ≤ runtime.greatestFiniteMagnitude) ∧
          ∀ x ∈ l.transformationsZ, |x| ≤ runtime.greatestFiniteMagnitude := by
  simp only [InRange, floats, List.mem_append, or_imp, forall_and, and_assoc]

/-- The document of a location in range is one of the location with its coordinates rounded. -/
theorem isDocumentOf_entriesOf {l : Location K} (h : l.InRange runtime) :
    IsDocumentOf runtime (EncodableType.entriesOf l) (l.rounded runtime) := by
  obtain ⟨hx, hy, hz⟩ := (l.inRange_iff runtime).1 h
  have hfields : HasFields runtime (EncodableType.entriesOf l) (l.rounded runtime) := by
    constructor
    case id => exact ⟨_, rfl, _, rfl, l.id.parse_uuidString⟩
    case lat => exact ⟨_, rfl, .double l.lat, rfl, rfl⟩
    case long => exact ⟨_, rfl, .double l.long, rfl, rfl⟩
    case directions => exact ⟨_, rfl, stringArray_iff.2 rfl⟩
    case transformationsX => exact ⟨_, rfl, (numberArray_iff runtime).2 ⟨hx, rfl⟩⟩
    case transformationsY => exact ⟨_, rfl, (numberArray_iff runtime).2 ⟨hy, rfl⟩⟩
    case transformationsZ => exact ⟨_, rfl, (numberArray_iff runtime).2 ⟨hz, rfl⟩⟩
    all_goals exact ⟨_, rfl, rfl⟩
  exact ⟨hfields, _, rfl, .inl rfl⟩

/-- Which locations the document of a location is one of. -/
theorem isDocumentOf_entriesOf_iff {l l' : Location K} :
    IsDocumentOf runtime (EncodableType.entriesOf l) l' ↔
      l.InRange runtime ∧ l' = l.rounded runtime := by
  constructor
  · intro h
    have hrange : l.InRange runtime := by
      refine (l.inRange_iff runtime).2 ⟨?_, ?_, ?_⟩
      · exact ((numberArray_iff runtime).1 ((Shape.field_iff rfl).1 h.transformationsX)).1
      · exact ((numberArray_iff runtime).1 ((Shape.field_iff rfl).1 h.transformationsY)).1
      · exact ((numberArray_iff runtime).1 ((Shape.field_iff rfl).1 h.transformationsZ)).1
    exact ⟨hrange, h.unique (isDocumentOf_entriesOf runtime hrange)⟩
  · rintro ⟨hrange, rfl⟩
    exact isDocumentOf_entriesOf runtime hrange

/-- The recorded coordinates are `Float`s, of finite value. -/
def Location.IsFloat (l : Location K) : Prop :=
  l.InRange runtime ∧ ∀ x ∈ l.floats, runtime.float x = x

omit [Field K] [LinearOrder K] in
theorem Location.rounded_eq {l : Location K} (h : ∀ x ∈ l.floats, runtime.float x = x) :
    l.rounded runtime = l := by
  have hmap : ∀ xs ⊆ l.floats, xs.map runtime.float = xs := fun xs hxs =>
    (List.map_congr_left fun x hx => h x (hxs hx)).trans (List.map_id xs)
  rw [rounded, hmap l.transformationsX (by simp [floats]),
    hmap l.transformationsY (by simp [floats]), hmap l.transformationsZ (by simp [floats])]

/-- The document of a location is one of it. -/
theorem isDocumentOf_entriesOf_self {l : Location K} (h : l.IsFloat runtime) :
    IsDocumentOf runtime (EncodableType.entriesOf l) l := by
  have hdocument := isDocumentOf_entriesOf runtime h.1
  rwa [l.rounded_eq runtime h.2] at hdocument

/-! ## Encoding and decoding -/

/-- Reading a document back gives the location with its coordinates rounded, if they are in range,
and nothing else ever. -/
theorem decode_encode_eq_ok_iff (l l' : Location K) :
    (∃ entries, FirestoreEncoder.encode .location l = some (some entries) ∧
        FirestoreDecoder.decode "Location" (.location runtime) entries = .ok l') ↔
      l.InRange runtime ∧ l' = l.rounded runtime := by
  rw [← isDocumentOf_entriesOf_iff, ← decode_eq_ok_iff, FirestoreEncoder.encode_location]
  constructor
  · rintro ⟨entries, hentries, hdecode⟩
    rw [Option.some.inj (Option.some.inj hentries)]
    exact hdecode
  · exact fun h => ⟨_, rfl, h⟩

end Order

end EyeMaps
