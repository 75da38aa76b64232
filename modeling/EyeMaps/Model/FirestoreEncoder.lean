import EyeMaps.Framework.Hex
import EyeMaps.Model.FirestoreObject

/-!
# Encoding a location as a document

`Firestore.Encoder` of the Firestore pod, as far as a `Location` takes it.  The encoder keeps two
stacks, the containers it is filling and the coding path, and decides by comparing their heights
whether a request for a container opens a new one.  A container handed out is a reference into the
stack of containers, here the index it has there.  Preconditions that fail stop the program
(`none`).

An `EncodableType` is a conformance to `Encodable`: what `box_` passes through for the type, or
`encode(to:)`.
`EncodesAs` says what a conformance denotes: with the heights in balance `box_` gives that tree and
restores both stacks.  It is proved of each conformance next to it.
-/

namespace EyeMaps

open Framework

variable {K α : Type}

/-! ## Keys -/

/-- `CodingKey`; the keys of arrays have an `intValue`. -/
structure CodingKey where
  stringValue : String
  intValue : Option ℕ
  deriving DecidableEq

namespace CodingKey

/-- A case of a `CodingKeys` enumeration. -/
def field (stringValue : String) : CodingKey := ⟨stringValue, none⟩

/-- `_FirestoreKey(index:)`. -/
def index (i : ℕ) : CodingKey := ⟨s!"Index {i}", some i⟩

end CodingKey

/-! ## The encoder -/

structure FirestoreEncoder (K : Type) where
  storage : List (NSObject K)
  codingPath : List CodingKey

/-- A conformance to `Encodable`: the object that `box_` passes through for the values of the type,
or else `encode(to:)`. -/
inductive EncodableType (K α : Type)
  | native (object : α → NSObject K)
  | encode (encode : α → FirestoreEncoder K → Option (FirestoreEncoder K))

namespace FirestoreEncoder

/-- `_FirestoreEncoder.init()`. -/
def initial : FirestoreEncoder K := ⟨[], []⟩

def shouldAllocateNewContainer (e : FirestoreEncoder K) : Bool :=
  e.storage.length == e.codingPath.length

/-- `push(container:)` of the storage. -/
def push (container : NSObject K) (e : FirestoreEncoder K) : FirestoreEncoder K :=
  { e with storage := e.storage ++ [container] }

def popContainer (e : FirestoreEncoder K) : Option (NSObject K × FirestoreEncoder K) :=
  match e.storage.getLast? with
  | some container => some (container, { e with storage := e.storage.dropLast })
  | none => none

/-- `container(keyedBy:)`: a new dictionary, or the one on top of the storage. -/
def container (e : FirestoreEncoder K) : Option (ℕ × FirestoreEncoder K) :=
  if e.shouldAllocateNewContainer then some (e.storage.length, e.push (.dictionary []))
  else
    match e.storage.getLast? with
    | some (.dictionary _) => some (e.storage.length - 1, e)
    | _ => none

/-- `unkeyedContainer()`: a new array, or the one on top of the storage. -/
def unkeyedContainer (e : FirestoreEncoder K) : Option (ℕ × FirestoreEncoder K) :=
  if e.shouldAllocateNewContainer then some (e.storage.length, e.push (.array []))
  else
    match e.storage.getLast? with
    | some (.array _) => some (e.storage.length - 1, e)
    | _ => none

/-- `encode(_:)` of the single value container. -/
def encodeSingle (object : NSObject K) (e : FirestoreEncoder K) : Option (FirestoreEncoder K) :=
  if e.shouldAllocateNewContainer then some (e.push object) else none

/-- `box_(_:)`; a value that asks for no container gives no object. -/
def box_ (c : EncodableType K α) (value : α) (e : FirestoreEncoder K) :
    Option (Option (NSObject K) × FirestoreEncoder K) :=
  match c with
  | .native object => some (some (object value), e)
  | .encode encode => do
    let depth := e.storage.length
    let e ← encode value e
    if depth < e.storage.length then
      let (object, e) ← e.popContainer
      some (some object, e)
    else some (none, e)

/-- `box(_:)`. -/
def box (c : EncodableType K α) (value : α) (e : FirestoreEncoder K) :
    Option (NSObject K × FirestoreEncoder K) :=
  (box_ c value e).map fun p => (p.1.getD (.dictionary []), p.2)

/-! ### Keyed containers -/

/-- `dictionary[key] = object` -/
def setObject (key : String) (object : NSObject K) : NSObject K → NSObject K
  | .dictionary entries => .dictionary (setEntry key object entries)
  | container => container

/-- `encode(_:forKey:)` of the keyed container `i` for a type with an overload of its own. -/
def encodeObject (i : ℕ) (key : CodingKey) (object : NSObject K) (e : FirestoreEncoder K) :
    FirestoreEncoder K :=
  { e with storage := e.storage.modify i (setObject key.stringValue object) }

/-- The generic `encode(_:forKey:)` of the keyed container `i`. -/
def encodeForKey (c : EncodableType K α) (i : ℕ) (key : CodingKey) (value : α)
    (e : FirestoreEncoder K) : Option (FirestoreEncoder K) := do
  let e := { e with codingPath := e.codingPath ++ [key] }
  let (object, e) ← e.box c value
  let e := { e with codingPath := e.codingPath.dropLast }
  some (e.encodeObject i key object)

/-! ### Unkeyed containers -/

/-- `array.add(object)` -/
def addObject (object : NSObject K) : NSObject K → NSObject K
  | .array elements => .array (elements ++ [object])
  | container => container

/-- `count` of the unkeyed container `i`. -/
def count (i : ℕ) (e : FirestoreEncoder K) : ℕ :=
  match e.storage[i]? with
  | some (.array elements) => elements.length
  | _ => 0

/-- The generic `encode(_:)` of the unkeyed container `i`. -/
def encodeElement (c : EncodableType K α) (i : ℕ) (e : FirestoreEncoder K) (value : α) :
    Option (FirestoreEncoder K) := do
  let e := { e with codingPath := e.codingPath ++ [CodingKey.index (e.count i)] }
  let (object, e) ← e.box c value
  let e := { e with codingPath := e.codingPath.dropLast }
  some { e with storage := e.storage.modify i (addObject object) }

/-- `Firestore.Encoder.encode(_:)`; what is not a dictionary at the top is an error. -/
def encode (c : EncodableType K α) (value : α) : Option (Option (List (String × NSObject K))) :=
  (box_ c value initial).map fun p =>
    match p.1 with
    | some (.dictionary entries) => some entries
    | _ => none

end FirestoreEncoder

/-! ## UUIDs -/

/-- The lengths of the groups of digits. -/
def UUID.groups : List ℕ := [8, 4, 4, 4, 12]

/-- `uuidString`. -/
def UUID.uuidString (id : UUID) : String :=
  String.ofList (Hex.group '-' UUID.groups (Hex.digits 32 id.toNat))

/-- `UUID(uuidString:)`. -/
def UUID.parse (uuidString : String) : Option UUID := do
  let hex ← Hex.ungroup '-' UUID.groups uuidString.toList
  let n ← Hex.parse hex
  some (BitVec.ofNat 128 n)

theorem UUID.parse_uuidString (id : UUID) : UUID.parse id.uuidString = some id := by
  have hlength : (Hex.digits 32 id.toNat).length = UUID.groups.sum := Hex.length_digits 32 _
  have hlt : id.toNat < 16 ^ 32 := id.isLt
  rw [UUID.parse, UUID.uuidString, String.toList_ofList, Hex.ungroup_group '-' hlength,
    Option.bind_eq_bind, Option.bind_some, Hex.parse_digits hlt, Option.bind_eq_bind,
    Option.bind_some, BitVec.ofNat_toNat, BitVec.setWidth_eq]

/-! ## Conformances -/

namespace EncodableType

open FirestoreEncoder

def string : EncodableType K String := .encode fun s => encodeSingle (.leaf (.string s))

/-- `Float` and `Double` are both encoded as numbers. -/
def number : EncodableType K K := .encode fun x => encodeSingle (.leaf (.number (.double x)))

def uuid : EncodableType K UUID := .encode fun id => encodeSingle (.leaf (.string id.uuidString))

def data : EncodableType K Data := .native fun data => .leaf (.data data)

def geoPoint : EncodableType K (GeoPoint K) := .native fun geoPoint => .leaf (.geoPoint geoPoint)

def array (c : EncodableType K α) : EncodableType K (List α) :=
  .encode fun values e => do
    let (i, e) ← e.unkeyedContainer
    values.foldlM (encodeElement c i) e

/-- The conformance that the compiler makes for `Location`: the fields in order. -/
def location : EncodableType K (Location K) :=
  .encode fun l e => do
    let (i, e) ← e.container
    let e ← e.encodeForKey uuid i (.field "id") l.id
    let e := e.encodeObject i (.field "lat") (.leaf (.number (.double l.lat)))
    let e := e.encodeObject i (.field "long") (.leaf (.number (.double l.long)))
    let e := e.encodeObject i (.field "title") (.leaf (.string l.title))
    let e := e.encodeObject i (.field "subtitle") (.leaf (.string l.subtitle))
    let e ← e.encodeForKey (array string) i (.field "directions") l.directions
    let e ← e.encodeForKey data i (.field "worldData") l.worldData
    let e ← e.encodeForKey (array number) i (.field "transformationsX") l.transformationsX
    let e ← e.encodeForKey (array number) i (.field "transformationsY") l.transformationsY
    let e ← e.encodeForKey (array number) i (.field "transformationsZ") l.transformationsZ
    e.encodeForKey geoPoint i (.field "location") l.location

end EncodableType

/-! ## What the conformances denote -/

namespace EncodableType

open FirestoreEncoder

/-- With the stacks in balance, `box_` gives the tree of the value and restores both stacks. -/
def EncodesAs (c : EncodableType K α) (tree : α → NSObject K) : Prop :=
  ∀ value e, e.shouldAllocateNewContainer = true → box_ c value e = some (some (tree value), e)

theorem encodesAs_native (object : α → NSObject K) : (native object).EncodesAs object :=
  fun _ _ _ => rfl

/-- An `encode(to:)` that pushes one container. -/
theorem encodesAs_of_push {encode : α → FirestoreEncoder K → Option (FirestoreEncoder K)}
    {tree : α → NSObject K}
    (h : ∀ value e, e.shouldAllocateNewContainer = true →
      encode value e = some (e.push (tree value))) :
    (EncodableType.encode encode).EncodesAs tree := by
  intro value e he
  have hpop : (e.push (tree value)).popContainer = some (tree value, e) := by
    simp [popContainer, push]
  have hdepth : e.storage.length < (e.push (tree value)).storage.length := by
    simp [push]
  simp only [box_, h value e he, Option.bind_eq_bind, Option.bind_some, if_pos hdepth, hpop]

theorem EncodesAs.box {c : EncodableType K α} {tree : α → NSObject K} (h : c.EncodesAs tree)
    (value : α) {e : FirestoreEncoder K} (he : e.shouldAllocateNewContainer = true) :
    e.box c value = some (tree value, e) := by
  rw [FirestoreEncoder.box, h value e he]
  rfl

theorem encodesAs_single (object : α → NSObject K) :
    (EncodableType.encode fun value => encodeSingle (object value)).EncodesAs object :=
  encodesAs_of_push fun value e he => by simp only [encodeSingle, he, if_true]

theorem encodesAs_string : string.EncodesAs fun s => (.leaf (.string s) : NSObject K) :=
  encodesAs_single _

theorem encodesAs_number : number.EncodesAs fun x => (.leaf (.number (.double x)) : NSObject K) :=
  encodesAs_single _

theorem encodesAs_uuid :
    uuid.EncodesAs fun id => (.leaf (.string id.uuidString) : NSObject K) :=
  encodesAs_single _

/-! ### Filling a container -/

/-- The encoder while it fills `container` over the stack `storage`. -/
def filling (storage : List (NSObject K)) (codingPath : List CodingKey) (container : NSObject K) :
    FirestoreEncoder K :=
  ⟨storage ++ [container], codingPath⟩

/-- Below a container that is being filled, one more key brings the stacks into balance. -/
theorem shouldAllocateNewContainer_filling {storage : List (NSObject K)}
    {codingPath : List CodingKey} (h : storage.length = codingPath.length)
    (container : NSObject K) (key : CodingKey) :
    shouldAllocateNewContainer
      { filling storage codingPath container with codingPath := codingPath ++ [key] } = true := by
  simp [shouldAllocateNewContainer, filling, h]

theorem modify_filling (storage : List (NSObject K)) (container : NSObject K)
    (f : NSObject K → NSObject K) :
    (storage ++ [container]).modify storage.length f = storage ++ [f container] := by
  induction storage with
  | nil => rfl
  | cons top storage ih =>
    rw [List.cons_append, List.length_cons, List.modify_succ_cons, ih, List.cons_append]

theorem encodeObject_filling (storage : List (NSObject K)) (codingPath : List CodingKey)
    (entries : List (String × NSObject K)) (key : CodingKey) (object : NSObject K) :
    (filling storage codingPath (.dictionary entries)).encodeObject storage.length key object =
      filling storage codingPath (.dictionary (setEntry key.stringValue object entries)) := by
  rw [encodeObject, filling, modify_filling]
  rfl

theorem EncodesAs.encodeForKey {c : EncodableType K α} {tree : α → NSObject K}
    (h : c.EncodesAs tree) {storage : List (NSObject K)} {codingPath : List CodingKey}
    (hbalance : storage.length = codingPath.length) (entries : List (String × NSObject K))
    (key : CodingKey) (value : α) :
    (filling storage codingPath (.dictionary entries)).encodeForKey c storage.length key value =
      some (filling storage codingPath
        (.dictionary (setEntry key.stringValue (tree value) entries))) := by
  have hbox := h.box value
    (shouldAllocateNewContainer_filling hbalance (.dictionary entries) key)
  have hpath : (codingPath ++ [key]).dropLast = codingPath := List.dropLast_concat
  simp only [FirestoreEncoder.encodeForKey]
  show (FirestoreEncoder.box c value { filling storage codingPath (.dictionary entries) with
    codingPath := codingPath ++ [key] }).bind _ = _
  rw [hbox, Option.bind_some]
  show some (encodeObject _ key (tree value) (filling storage _ _)) = _
  rw [hpath, encodeObject_filling]

theorem EncodesAs.encodeElement {c : EncodableType K α} {tree : α → NSObject K}
    (h : c.EncodesAs tree) {storage : List (NSObject K)} {codingPath : List CodingKey}
    (hbalance : storage.length = codingPath.length) (elements : List (NSObject K)) (value : α) :
    FirestoreEncoder.encodeElement c storage.length
        (filling storage codingPath (.array elements)) value =
      some (filling storage codingPath (.array (elements ++ [tree value]))) := by
  let key := CodingKey.index ((filling storage codingPath (.array elements)).count storage.length)
  have hbox := h.box value (shouldAllocateNewContainer_filling hbalance (.array elements) key)
  have hpath : (codingPath ++ [key]).dropLast = codingPath := List.dropLast_concat
  simp only [FirestoreEncoder.encodeElement]
  show (FirestoreEncoder.box c value { filling storage codingPath (.array elements) with
    codingPath := codingPath ++ [key] }).bind _ = _
  rw [hbox, Option.bind_some]
  show some (FirestoreEncoder.mk ((storage ++ [_]).modify storage.length (addObject (tree value)))
    (codingPath ++ [key]).dropLast) = _
  rw [hpath, modify_filling]
  rfl

/-- An array encodes as the array of what its elements encode as. -/
theorem EncodesAs.array {c : EncodableType K α} {tree : α → NSObject K} (h : c.EncodesAs tree) :
    c.array.EncodesAs fun values => .array (values.map tree) := by
  refine encodesAs_of_push fun values e he => ?_
  have hbalance : e.storage.length = e.codingPath.length := by
    simpa [shouldAllocateNewContainer] using he
  -- the loop, from an array filled so far
  have hloop : ∀ elements : List (NSObject K),
      values.foldlM (FirestoreEncoder.encodeElement c e.storage.length)
          (filling e.storage e.codingPath (.array elements)) =
        some (filling e.storage e.codingPath (.array (elements ++ values.map tree))) := by
    induction values with
    | nil => simp
    | cons value values ih =>
      intro elements
      rw [List.foldlM_cons, h.encodeElement hbalance, Option.bind_eq_bind, Option.bind_some, ih,
        List.map_cons, List.append_assoc, List.singleton_append]
  simp only [unkeyedContainer, he, if_true, Option.bind_eq_bind, Option.bind_some]
  exact hloop []

/-! ### Locations -/

def stringArray (l : List String) : NSObject K := .array (l.map fun s => .leaf (.string s))

def numberArray (l : List K) : NSObject K := .array (l.map fun x => .leaf (.number (.double x)))

/-- The entries of the document of a location. -/
def entriesOf (l : Location K) : List (String × NSObject K) :=
  [("id", .leaf (.string l.id.uuidString)),
    ("lat", .leaf (.number (.double l.lat))),
    ("long", .leaf (.number (.double l.long))),
    ("title", .leaf (.string l.title)),
    ("subtitle", .leaf (.string l.subtitle)),
    ("directions", stringArray l.directions),
    ("worldData", .leaf (.data l.worldData)),
    ("transformationsX", numberArray l.transformationsX),
    ("transformationsY", numberArray l.transformationsY),
    ("transformationsZ", numberArray l.transformationsZ),
    ("location", .leaf (.geoPoint l.location))]

/-- Writing the eleven fields one after the other gives the entries in the same order. -/
theorem encodesAs_location :
    location.EncodesAs fun l => (.dictionary (entriesOf l) : NSObject K) := by
  refine encodesAs_of_push fun l e he => ?_
  have hbalance : e.storage.length = e.codingPath.length := by
    simpa [shouldAllocateNewContainer] using he
  have hstart : e.push (.dictionary []) = filling e.storage e.codingPath (.dictionary []) := rfl
  have hstrings : (array string).EncodesAs (stringArray (K := K)) := encodesAs_string.array
  have hnumbers : (array number).EncodesAs (numberArray (K := K)) := encodesAs_number.array
  have hdata : data.EncodesAs fun d => (.leaf (.data d) : NSObject K) := encodesAs_native _
  have hgeoPoint : geoPoint.EncodesAs fun g => (.leaf (.geoPoint g) : NSObject K) :=
    encodesAs_native _
  simp only [FirestoreEncoder.container, he, if_true, Option.bind_eq_bind, Option.bind_some,
    hstart, encodesAs_uuid.encodeForKey hbalance, encodeObject_filling,
    hstrings.encodeForKey hbalance, hdata.encodeForKey hbalance, hnumbers.encodeForKey hbalance,
    hgeoPoint.encodeForKey hbalance]
  simp [filling, push, entriesOf, setEntry, CodingKey.field]

end EncodableType

namespace FirestoreEncoder

/-- The document that `setData(from:)` hands to Firestore. -/
theorem encode_location (l : Location K) :
    encode .location l = some (some (EncodableType.entriesOf l)) := by
  rw [encode, EncodableType.encodesAs_location l initial rfl]
  rfl

end FirestoreEncoder

end EyeMaps
