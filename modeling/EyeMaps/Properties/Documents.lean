import EyeMaps.Model.FirestoreDecoder

/-!
# The documents of a location

A description of documents that knows nothing of the decoder.  A shape relates an object to the
value it stands for, and `IsDocumentOf` gives each field of a location the shape of its entry; a
document is one of at most one location (`IsDocumentOf.unique`).  `IsTrap` describes the documents
that look like one of a location and have a place off the earth, over which Firestore stops the
program.  `DecodingError.Blames` says that an error is about a part of a document: its coding path
leads there, and what it says of that part is so.
-/

namespace EyeMaps

open Framework

variable {K α : Type}

/-! ## Blame -/

/-- The step into a document that a coding key stands for. -/
def CodingKey.step (key : CodingKey) : Document.Step :=
  match key.intValue with
  | some i => .index i
  | none => .key key.stringValue

namespace DecodingError

def context : DecodingError → DecodingContext
  | .keyNotFound _ context => context
  | .valueNotFound _ context => context
  | .typeMismatch _ context => context
  | .dataCorrupted context => context

variable [Field K] [LinearOrder K]

/-- The error is right about the object `o`. -/
def Fits (runtime : Runtime K) (o : NSObject K) : DecodingError → Prop
  | .keyNotFound key _ =>
    ∃ entries, o = .dictionary entries ∧ entries.lookup key.stringValue = none
  | .valueNotFound _ _ => o = .leaf .null
  | .typeMismatch type context =>
    o ≠ .leaf .null ∧
      (context.debugDescription = "Expected to decode " ++ type ++ " but found " ++
          FirestoreDecoder.typeDescription runtime o ++ " instead." ∨
        context.debugDescription = "Not a dictionary" ∧ (∀ entries, o ≠ .dictionary entries) ∨
        context.debugDescription = "Not an array" ∧ ∀ elements, o ≠ .array elements)
  | .dataCorrupted _ =>
    (∃ string, o = .leaf (.string string) ∧ UUID.parse string = none) ∨
      ∃ number, o = .leaf (.number number) ∧
        ¬ |number.doubleValue runtime| ≤ runtime.greatestFiniteMagnitude

end DecodingError

section Blame

variable [Field K] [LinearOrder K] {runtime : Runtime K}

/-- The error is about a part of `value`, which is at `path`: its coding path leads to an object
that it is right about. -/
def DecodingError.Blames (runtime : Runtime K) (path : List CodingKey) (value : NSObject K)
    (error : DecodingError) : Prop :=
  ∃ rest o, error.context.codingPath = path ++ rest ∧
    value.at? (rest.map CodingKey.step) = some o ∧ error.Fits runtime o

/-- What blames a part of a child blames a part of the value. -/
theorem DecodingError.Blames.of_child {error : DecodingError} {path : List CodingKey}
    {key : CodingKey} {value child : NSObject K} (hchild : value.child? key.step = some child)
    (h : error.Blames runtime (path ++ [key]) child) : error.Blames runtime path value := by
  obtain ⟨rest, o, hpath, ho, hfits⟩ := h
  refine ⟨key :: rest, o, ?_, ?_, hfits⟩
  · rw [hpath, List.append_assoc, List.singleton_append]
  · rw [List.map_cons, Document.at?_cons, hchild]
    exact ho

/-- An error thrown at the value itself. -/
theorem blames_here {error : DecodingError} {path : List CodingKey} {value : NSObject K}
    (hpath : error.context.codingPath = path) (hfits : error.Fits runtime value) :
    error.Blames runtime path value :=
  ⟨[], value, by rw [hpath, List.append_nil], rfl, hfits⟩

end Blame

/-! ## Shapes -/

/-- What the fields of a document hold: the relation between an object and a value. -/
abbrev Shape (K α : Type) := NSObject K → α → Prop

namespace Shape

def string : Shape K String := fun o s => o = .leaf (.string s)

/-- A number is read as a `Double`, whatever its type. -/
def double (runtime : Runtime K) : Shape K K :=
  fun o x => ∃ number, o = .leaf (.number number) ∧ x = number.doubleValue runtime

def data : Shape K Data := fun o d => o = .leaf (.data d)

def uuid : Shape K UUID := fun o id => ∃ s, o = .leaf (.string s) ∧ UUID.parse s = some id

def array (shape : Shape K α) : Shape K (List α) :=
  fun o values => ∃ elements, o = .array elements ∧ List.Forall₂ shape elements values

/-- The entry of a key has the shape. -/
def field (shape : Shape K α) (key : String) (entries : List (String × NSObject K)) (a : α) :
    Prop :=
  ∃ o, entries.lookup key = some o ∧ shape o a

section Order

variable [Field K] [LinearOrder K]

/-- A `Float` is rounded from a number in its range. -/
def float (runtime : Runtime K) : Shape K K :=
  fun o x => ∃ double, Shape.double runtime o double ∧
    |double| ≤ runtime.greatestFiniteMagnitude ∧ x = runtime.float double

/-- A geopoint, or a dictionary with a latitude and a longitude on earth. -/
def geoPoint (runtime : Runtime K) : Shape K (GeoPoint K) :=
  fun o g => o = .leaf (.geoPoint g) ∨
    ∃ entries, o = .dictionary entries ∧
      (double runtime).field "latitude" entries g.latitude ∧
      (double runtime).field "longitude" entries g.longitude ∧ OnEarth g.latitude g.longitude

end Order

end Shape

section Order

variable [Field K] [LinearOrder K]

/-- A dictionary that is read as a geopoint, with its coordinates off the earth. -/
def OffEarth (runtime : Runtime K) (o : NSObject K) : Prop :=
  ∃ entries latitude longitude, o = .dictionary entries ∧
    (Shape.double runtime).field "latitude" entries latitude ∧
    (Shape.double runtime).field "longitude" entries longitude ∧ ¬ OnEarth latitude longitude

/-- The entries of the fields of `l` but the last. -/
structure HasFields (runtime : Runtime K) (entries : List (String × NSObject K)) (l : Location K) :
    Prop where
  id : Shape.uuid.field "id" entries l.id
  lat : (Shape.double runtime).field "lat" entries l.lat
  long : (Shape.double runtime).field "long" entries l.long
  title : Shape.string.field "title" entries l.title
  subtitle : Shape.string.field "subtitle" entries l.subtitle
  directions : Shape.string.array.field "directions" entries l.directions
  worldData : Shape.data.field "worldData" entries l.worldData
  transformationsX : (Shape.float runtime).array.field "transformationsX" entries
    l.transformationsX
  transformationsY : (Shape.float runtime).array.field "transformationsY" entries
    l.transformationsY
  transformationsZ : (Shape.float runtime).array.field "transformationsZ" entries
    l.transformationsZ

/-- The document with the given entries is one of the location `l`; entries of other keys do not
matter. -/
structure IsDocumentOf (runtime : Runtime K) (entries : List (String × NSObject K))
    (l : Location K) : Prop extends HasFields runtime entries l where
  location : (Shape.geoPoint runtime).field "location" entries l.location

/-- The document is one of a location up to its last field, a dictionary off the earth. -/
def IsTrap (runtime : Runtime K) (entries : List (String × NSObject K)) : Prop :=
  (∃ l, HasFields runtime entries l) ∧ ∃ o, entries.lookup "location" = some o ∧ OffEarth runtime o

end Order

/-! ## A document is one of one location -/

section Unique

open Relator

attribute [ext] GeoPoint Location

/-- A shape that asks for one kind of object. -/
theorem Shape.rightUnique_leaf {f : α → Scalar K} (hf : Function.Injective f) :
    RightUnique fun (o : NSObject K) a => o = .leaf (f a) := by
  intro o a b ha hb
  have hsame : Document.leaf (f a) = Document.leaf (f b) := ha.symm.trans hb
  exact hf (Document.leaf.inj hsame)

theorem Shape.rightUnique_string : RightUnique (string (K := K)) :=
  rightUnique_leaf fun _ _ h => Scalar.string.inj h

theorem Shape.rightUnique_double (runtime : Runtime K) : RightUnique (double runtime) := by
  rintro o x x' ⟨number, hnumber, rfl⟩ ⟨number', hnumber', rfl⟩
  rw [rightUnique_leaf (fun _ _ h => Scalar.number.inj h) hnumber hnumber']

theorem Shape.rightUnique_data : RightUnique (data (K := K)) :=
  rightUnique_leaf fun _ _ h => Scalar.data.inj h

theorem Shape.rightUnique_uuid : RightUnique (uuid (K := K)) := by
  rintro o id id' ⟨s, hs, hid⟩ ⟨s', hs', hid'⟩
  rw [rightUnique_string hs hs', hid'] at hid
  exact (Option.some.inj hid).symm

theorem Shape.rightUnique_array {shape : Shape K α} (h : RightUnique shape) :
    RightUnique shape.array := by
  rintro o values values' ⟨elements, rfl, hvalues⟩ ⟨elements', helements, hvalues'⟩
  cases helements
  exact h.forall₂ hvalues hvalues'

theorem Shape.rightUnique_field {shape : Shape K α} (h : RightUnique shape) (key : String) :
    RightUnique (shape.field key) := by
  rintro entries a b ⟨o, ho, ha⟩ ⟨o', ho', hb⟩
  rw [ho] at ho'
  cases ho'
  exact h ha hb

variable [Field K] [LinearOrder K]

theorem Shape.rightUnique_float (runtime : Runtime K) : RightUnique (float runtime) := by
  rintro o x x' ⟨double, hdouble, -, rfl⟩ ⟨double', hdouble', -, rfl⟩
  rw [rightUnique_double runtime hdouble hdouble']

theorem Shape.rightUnique_geoPoint (runtime : Runtime K) : RightUnique (geoPoint runtime) := by
  rintro o g g' (hg | ⟨entries, rfl, hlat, hlong, -⟩) (hg' | ⟨_, hentries', hlat', hlong', -⟩)
  · exact rightUnique_leaf (fun _ _ h => Scalar.geoPoint.inj h) hg hg'
  · rw [hg] at hentries'
    cases hentries'
  · cases hg'
  · cases hentries'
    have hlatitude : g.latitude = g'.latitude :=
      rightUnique_field (rightUnique_double runtime) "latitude" hlat hlat'
    have hlongitude : g.longitude = g'.longitude :=
      rightUnique_field (rightUnique_double runtime) "longitude" hlong hlong'
    exact GeoPoint.ext hlatitude hlongitude

variable {runtime : Runtime K} {entries : List (String × NSObject K)}

theorem IsDocumentOf.unique {l l' : Location K} (h : IsDocumentOf runtime entries l)
    (h' : IsDocumentOf runtime entries l') : l = l' := by
  have hfloats : ∀ key, RightUnique ((Shape.float runtime).array.field key) := fun key =>
    Shape.rightUnique_field (Shape.rightUnique_array (Shape.rightUnique_float runtime)) key
  exact Location.ext (Shape.rightUnique_field Shape.rightUnique_uuid "id" h.id h'.id)
    (Shape.rightUnique_field (Shape.rightUnique_double runtime) "lat" h.lat h'.lat)
    (Shape.rightUnique_field (Shape.rightUnique_double runtime) "long" h.long h'.long)
    (Shape.rightUnique_field Shape.rightUnique_string "title" h.title h'.title)
    (Shape.rightUnique_field Shape.rightUnique_string "subtitle" h.subtitle h'.subtitle)
    (Shape.rightUnique_field (Shape.rightUnique_array Shape.rightUnique_string) "directions"
      h.directions h'.directions)
    (Shape.rightUnique_field Shape.rightUnique_data "worldData" h.worldData h'.worldData)
    (hfloats "transformationsX" h.transformationsX h'.transformationsX)
    (hfloats "transformationsY" h.transformationsY h'.transformationsY)
    (hfloats "transformationsZ" h.transformationsZ h'.transformationsZ)
    (Shape.rightUnique_field (Shape.rightUnique_geoPoint runtime) "location" h.location
      h'.location)

theorem not_geoPoint_of_offEarth {o : NSObject K} (h : OffEarth runtime o) (g : GeoPoint K) :
    ¬ Shape.geoPoint runtime o g := by
  obtain ⟨entries, latitude, longitude, rfl, hlat, hlong, hoff⟩ := h
  rintro (hg | ⟨entries', hentries', hlat', hlong', hearth⟩)
  · cases hg
  · cases hentries'
    have hlatitude : latitude = g.latitude :=
      Shape.rightUnique_field (Shape.rightUnique_double runtime) "latitude" hlat hlat'
    have hlongitude : longitude = g.longitude :=
      Shape.rightUnique_field (Shape.rightUnique_double runtime) "longitude" hlong hlong'
    rw [hlatitude, hlongitude] at hoff
    exact hoff hearth

theorem IsTrap.not_isDocumentOf (h : IsTrap runtime entries) (l : Location K) :
    ¬ IsDocumentOf runtime entries l := by
  intro hl
  obtain ⟨-, o, ho, hoff⟩ := h
  obtain ⟨o', ho', hg⟩ := hl.location
  rw [ho] at ho'
  cases ho'
  exact not_geoPoint_of_offEarth hoff l.location hg

end Unique

/-! ## Only the fields of a location matter -/

/-- The keys of a location. -/
def Location.codingKeys : List String :=
  ["id", "lat", "long", "title", "subtitle", "directions", "worldData", "transformationsX",
    "transformationsY", "transformationsZ", "location"]

/-- The dictionaries have the same entries at the keys of a location. -/
def SameFields (entries entries' : List (String × NSObject K)) : Prop :=
  ∀ key ∈ Location.codingKeys, entries'.lookup key = entries.lookup key

namespace SameFields

variable {entries entries' : List (String × NSObject K)}

theorem symm (h : SameFields entries entries') : SameFields entries' entries :=
  fun key hkey => (h key hkey).symm

theorem field (h : SameFields entries entries') {shape : Shape K α} {key : String} {a : α}
    (hkey : key ∈ Location.codingKeys) (ha : shape.field key entries a) :
    shape.field key entries' a := by
  rw [Shape.field, h key hkey]
  exact ha

variable [Field K] [LinearOrder K] {runtime : Runtime K}

theorem hasFields (h : SameFields entries entries') {l : Location K}
    (hl : HasFields runtime entries l) : HasFields runtime entries' l where
  id := h.field (by decide) hl.id
  lat := h.field (by decide) hl.lat
  long := h.field (by decide) hl.long
  title := h.field (by decide) hl.title
  subtitle := h.field (by decide) hl.subtitle
  directions := h.field (by decide) hl.directions
  worldData := h.field (by decide) hl.worldData
  transformationsX := h.field (by decide) hl.transformationsX
  transformationsY := h.field (by decide) hl.transformationsY
  transformationsZ := h.field (by decide) hl.transformationsZ

theorem isDocumentOf (h : SameFields entries entries') {l : Location K}
    (hl : IsDocumentOf runtime entries l) : IsDocumentOf runtime entries' l :=
  ⟨h.hasFields hl.toHasFields, h.field (by decide) hl.location⟩

theorem isTrap (h : SameFields entries entries') (htrap : IsTrap runtime entries) :
    IsTrap runtime entries' := by
  obtain ⟨⟨l, hl⟩, hplace⟩ := htrap
  refine ⟨⟨l, h.hasFields hl⟩, ?_⟩
  rwa [h "location" (by decide)]

end SameFields

end EyeMaps
