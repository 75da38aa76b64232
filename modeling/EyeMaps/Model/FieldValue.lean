import EyeMaps.Model.FirestoreObject

/-!
# The values of a document

What the Firestore pod keeps of a document: trees of values whose maps are sorted by their keys.
The constructors keep them sorted.  `convertedValue` gives an object for a value, as `data()` of a
document snapshot does, with the timestamps enabled and nothing for a server timestamp that is
pending.
-/

namespace EyeMaps

open Framework

variable {K : Type}

/-! ## Values -/

/-- The values that are not containers. -/
inductive FieldScalar (K : Type)
  | null
  | boolean (value : Bool)
  | integer (value : ℤ)
  | double (value : K)
  | timestamp (value : Timestamp)
  | serverTimestamp
  | string (value : String)
  | blob (value : Data)
  | reference (database : DatabaseId) (key : String)
  | geoPoint (value : GeoPoint K)
  deriving DecidableEq

structure FieldValue (K : Type) where
  tree : Document (FieldScalar K)
  sorted : tree.Sorted

/-- A map, such as the data of a document. -/
structure ObjectValue (K : Type) where
  entries : List (String × Document (FieldScalar K))
  sorted : (Document.dictionary entries).Sorted

namespace FieldValue

def scalar (a : FieldScalar K) : FieldValue K := ⟨.leaf a, Document.dictionaries_leaf a⟩

/-- `FromArray`. -/
def fromArray (values : List (FieldValue K)) : FieldValue K where
  tree := .array (values.map tree)
  sorted := by
    refine Document.dictionaries_array_iff.2 fun t ht => ?_
    obtain ⟨value, -, rfl⟩ := List.mem_map.1 ht
    exact value.sorted

end FieldValue

namespace ObjectValue

/-- `Empty`. -/
def empty : ObjectValue K where
  entries := []
  sorted := Document.dictionaries_dictionary_iff.2 ⟨List.Pairwise.nil, fun p hp => by cases hp⟩

/-- `AsFieldValue`. -/
def asFieldValue (object : ObjectValue K) : FieldValue K where
  tree := .dictionary object.entries
  sorted := object.sorted

/-- `SetChild`, which is `Set` for a path of one name: the map inserts in the order of the keys. -/
def setChild (object : ObjectValue K) (childName : String) (value : FieldValue K) :
    ObjectValue K where
  entries := insertEntry childName value.tree object.entries
  sorted := by
    obtain ⟨hsorted, hentries⟩ := Document.dictionaries_dictionary_iff.1 object.sorted
    refine Document.dictionaries_dictionary_iff.2 ⟨sortedKeys_insertEntry hsorted _ _, ?_⟩
    intro p hp
    rcases mem_insertEntry hp with rfl | hp
    · exact value.sorted
    · exact hentries p hp

end ObjectValue

/-! ## The objects of a snapshot -/

section Converted

variable (database : DatabaseId)

/-- `convertedValue:` for the values that are not containers; references are to the database of the
snapshot. -/
def convertedScalar : FieldScalar K → Scalar K
  | .null => .null
  | .boolean value => .bool value
  | .integer value => .number (.integer value)
  | .double value => .number (.double value)
  | .timestamp value => .timestamp value
  | .serverTimestamp => .null
  | .string value => .string value
  | .blob value => .data value
  | .reference _ key => .reference database key
  | .geoPoint value => .geoPoint value

mutual

/-- `convertedValue:` -/
def convertedValue : Document (FieldScalar K) → NSObject K
  | .leaf value => .leaf (convertedScalar database value)
  | .array arrayContents => .array (convertedArray arrayContents)
  | .dictionary objectValue => .dictionary (convertedEntries objectValue [])

/-- `convertedArray:` -/
def convertedArray : List (Document (FieldScalar K)) → List (NSObject K)
  | [] => []
  | value :: arrayContents => convertedValue value :: convertedArray arrayContents

/-- The loop of `convertedObject:`, with the dictionary so far. -/
def convertedEntries :
    List (String × Document (FieldScalar K)) → List (String × NSObject K) →
      List (String × NSObject K)
  | [], result => result
  | (key, value) :: objectValue, result =>
    convertedEntries objectValue (setEntry key (convertedValue value) result)

end

/-- `convertedObject:` -/
def convertedObject (object : ObjectValue K) : List (String × NSObject K) :=
  convertedEntries database object.entries []

theorem convertedArray_eq_map (arrayContents : List (Document (FieldScalar K))) :
    convertedArray database arrayContents = arrayContents.map (convertedValue database) := by
  induction arrayContents with
  | nil => rfl
  | cons value arrayContents ih => rw [convertedArray, ih, List.map_cons]

/-- The entries are written one after the other where none has the key of another. -/
theorem convertedEntries_eq_append {objectValue : List (String × Document (FieldScalar K))}
    (h : DistinctKeys objectValue) {result : List (String × NSObject K)}
    (hresult : ∀ p ∈ objectValue, ∀ q ∈ result, q.1 ≠ p.1) :
    convertedEntries database objectValue result =
      result ++ objectValue.map fun p => (p.1, convertedValue database p.2) := by
  induction objectValue generalizing result with
  | nil => rw [convertedEntries, List.map_nil, List.append_nil]
  | cons p objectValue ih =>
    obtain ⟨hp, hobject⟩ := List.nodup_cons.1 h
    rw [convertedEntries, setEntry_of_forall_ne (hresult p List.mem_cons_self), ih hobject,
      List.append_assoc, List.map_cons, List.singleton_append]
    intro p' hp' q hq
    rcases List.mem_append.1 hq with hq | hq
    · exact hresult p' (List.mem_cons_of_mem _ hp') q hq
    · rw [List.mem_singleton.1 hq]
      exact fun heq => hp (heq ▸ List.mem_map_of_mem hp')

theorem convertedEntries_eq_map {objectValue : List (String × Document (FieldScalar K))}
    (h : DistinctKeys objectValue) :
    convertedEntries database objectValue [] =
      objectValue.map fun p => (p.1, convertedValue database p.2) :=
  convertedEntries_eq_append database h fun _ _ q hq => by cases hq

end Converted

end EyeMaps
