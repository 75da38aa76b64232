import EyeMaps.Framework.Triple
import EyeMaps.Model.FirestoreEncoder
import EyeMaps.Model.Nearby
import Mathlib.Algebra.Order.Group.Unbundled.Abs

/-!
# Decoding a document to a location

`Firestore.Decoder` of the Firestore pod, as far as a `Location` takes it, and the initializers
`init(from:)` that it runs.  The decoder keeps the containers it is in and the coding path; both
grow on the way into a value and shrink on the way out.  An error is thrown with the coding path of
the moment, and nothing here catches one, so that the state of the decoder after it does not matter.

A `DecodableType` is a conformance to `Decodable`: what `unbox` does for a type it knows, or what it
passes through and `init(from:)`.  The names of types and keys are those that Swift prints.
-/

namespace EyeMaps

open Framework

variable {K α : Type}

/-! ## Errors -/

structure DecodingContext where
  codingPath : List CodingKey
  debugDescription : String
  deriving DecidableEq

inductive DecodingError
  | keyNotFound (key : CodingKey) (context : DecodingContext)
  | valueNotFound (type : String) (context : DecodingContext)
  | typeMismatch (type : String) (context : DecodingContext)
  | dataCorrupted (context : DecodingContext)
  deriving DecidableEq

/-- How decoding can end without a value: a Swift error, or a stop of the program. -/
inductive Failure
  | thrown (error : DecodingError)
  | trap
  deriving DecidableEq

/-! ## The decoder -/

structure FirestoreDecoder (K : Type) where
  storage : List (NSObject K)
  codingPath : List CodingKey

abbrev DecodeM (K : Type) := StateT (FirestoreDecoder K) (Except Failure)

/-- A conformance to `Decodable`: `unbox` itself where it knows the type, or else what it passes
through and `init(from:)`. -/
inductive DecodableType (K α : Type)
  | native (unbox : NSObject K → DecodeM K (Option α))
  | decode (passthrough : NSObject K → Option α) (decode : DecodeM K α)

/-- The parts of Swift that decoding depends on: the `Double` and the `Float` nearest to a number,
the largest `Float`, how a number is printed, and the name of the class of an object. -/
structure Runtime (K : Type) where
  double : ℤ → K
  float : K → K
  greatestFiniteMagnitude : K
  description : NSNumber K → String
  typeName : Scalar K → String

/-- `doubleValue` -/
def NSNumber.doubleValue (runtime : Runtime K) : NSNumber K → K
  | .integer value => runtime.double value
  | .double value => value
  | .char value => runtime.double value

/-- A runtime for the runs on fixed maps, whose numbers are all `Float`s. -/
def Runtime.exact : Runtime ℚ where
  double := fun value => value
  float := id
  greatestFiniteMagnitude := 340282346638528859811704183484516925440
  description := fun _ => ""
  typeName := fun _ => ""

namespace FirestoreDecoder

/-- Throw an error at the current coding path. -/
def throwAt (error : DecodingContext → DecodingError) (debugDescription : String) : DecodeM K α :=
  fun d => .error (.thrown (error ⟨d.codingPath, debugDescription⟩))

/-- `push(container:)` of the storage. -/
def push (container : NSObject K) : DecodeM K Unit :=
  fun d => .ok ((), { d with storage := d.storage ++ [container] })

def popContainer : DecodeM K Unit :=
  fun d =>
    match d.storage with
    | [] => .error .trap
    | _ :: _ => .ok ((), { d with storage := d.storage.dropLast })

def topContainer : DecodeM K (NSObject K) :=
  fun d =>
    match d.storage.getLast? with
    | some container => .ok (container, d)
    | none => .error .trap

/-- `codingPath.append(key)` -/
def pushKey (key : CodingKey) : DecodeM K Unit :=
  fun d => .ok ((), { d with codingPath := d.codingPath ++ [key] })

/-- `codingPath.removeLast()` -/
def popKey : DecodeM K Unit :=
  fun d => .ok ((), { d with codingPath := d.codingPath.dropLast })

/-- Run `m` with the key appended to the coding path. -/
def underKey (key : CodingKey) (m : DecodeM K α) : DecodeM K α := do
  pushKey key
  let a ← m
  popKey
  pure a

/-- Run `m` with the container on the storage. -/
def underContainer (container : NSObject K) (m : DecodeM K α) : DecodeM K α := do
  push container
  let a ← m
  popContainer
  pure a

/-! ## `unbox` -/

variable (runtime : Runtime K)

/-- `DecodingError._typeDescription(of:)`. -/
def typeDescription : NSObject K → String
  | .leaf .null => "a null value"
  | .leaf (.bool _) => "a number"
  | .leaf (.number _) => "a number"
  | .leaf (.string _) => "a string/data"
  | .array _ => "an array"
  | .dictionary _ => "a dictionary"
  | .leaf scalar => runtime.typeName scalar

/-- `DecodingError._typeMismatch(at:expectation:reality:)`, thrown. -/
def throwMismatch (expectation : String) (reality : NSObject K) : DecodeM K α :=
  throwAt (.typeMismatch expectation)
    ("Expected to decode " ++ expectation ++ " but found " ++
      typeDescription runtime reality ++ " instead.")

/-- `unbox(_:as: Float.self)`. -/
def unboxFloat [Field K] [LinearOrder K] : NSObject K → DecodeM K (Option K)
  | .leaf .null => pure none
  | .leaf (.number number) =>
    let double := number.doubleValue runtime
    if |double| ≤ runtime.greatestFiniteMagnitude then pure (some (runtime.float double))
    else
      throwAt .dataCorrupted
        ("Decoded number " ++ runtime.description number ++ " does not fit in Float.")
  | value => throwMismatch runtime "Float" value

/-- `unbox(_:as: Double.self)`. -/
def unboxDouble : NSObject K → DecodeM K (Option K)
  | .leaf .null => pure none
  | .leaf (.number number) => pure (some (number.doubleValue runtime))
  | value => throwMismatch runtime "Double" value

/-- `unbox(_:as: String.self)`. -/
def unboxString : NSObject K → DecodeM K (Option String)
  | .leaf .null => pure none
  | .leaf (.string string) => pure (some string)
  | value => throwMismatch runtime "String" value

/-- `unbox(_:as: Data.self)`. -/
def unboxData : NSObject K → DecodeM K (Option Data)
  | .leaf .null => pure none
  | .leaf (.data data) => pure (some data)
  | value => throwMismatch runtime "Data" value

/-- The generic `unbox(_:as:)`. -/
def unbox (c : DecodableType K α) (value : NSObject K) : DecodeM K (Option α) :=
  match c with
  | .native unbox => unbox value
  | .decode passthrough decode =>
    match passthrough value with
    | some v => pure (some v)
    | none => do
      let decoded ← underContainer value decode
      pure (some decoded)

/-! ## Containers -/

/-- `container(keyedBy:)`: the entries of the dictionary on top of the storage. -/
def keyedContainer (keyType : String) : DecodeM K (List (String × NSObject K)) := do
  let top ← topContainer
  match top with
  | .leaf .null =>
    throwAt (.valueNotFound ("KeyedDecodingContainer<" ++ keyType ++ ">"))
      "Cannot get keyed decoding container -- found null value instead."
  | .dictionary entries => pure entries
  | _ => throwAt (.typeMismatch "Dictionary<String, Any>") "Not a dictionary"

/-- `unkeyedContainer()`: the elements of the array on top of the storage. -/
def unkeyedContainer : DecodeM K (List (NSObject K)) := do
  let top ← topContainer
  match top with
  | .leaf .null =>
    throwAt (.valueNotFound "UnkeyedDecodingContainer")
      "Cannot get unkeyed decoding container -- found null value instead."
  | .array elements => pure elements
  | _ => throwAt (.typeMismatch "Array<Any>") "Not an array"

/-- `decode(_: String.self)` of the single value container. -/
def decodeSingleString : DecodeM K String := do
  let top ← topContainer
  match top with
  | .leaf .null =>
    throwAt (.valueNotFound "String") "Expected String but found null value instead."
  | _ => do
    let string ← unboxString runtime top
    match string with
    | some string => pure string
    | none => fun _ => .error .trap

/-- `decode(_: Float.self)` of the single value container. -/
def decodeSingleFloat [Field K] [LinearOrder K] : DecodeM K K := do
  let top ← topContainer
  match top with
  | .leaf .null =>
    throwAt (.valueNotFound "Float") "Expected Float but found null value instead."
  | _ => do
    let float ← unboxFloat runtime top
    match float with
    | some float => pure float
    | none => fun _ => .error .trap

/-! ### Keyed containers -/

/-- `require(key:)`; a key is printed with the name of its enumeration. -/
def requireKey (keyType : String) (entries : List (String × NSObject K)) (key : CodingKey) :
    DecodeM K (NSObject K) :=
  match entries.lookup key.stringValue with
  | some entry => pure entry
  | none =>
    throwAt (.keyNotFound key)
      ("No value associated with key " ++ keyType ++ "(stringValue: \"" ++ key.stringValue ++
        "\", intValue: nil) (\"" ++ key.stringValue ++ "\").")

/-- `require(value:)`. -/
def requireValue (type : String) : Option α → DecodeM K α
  | some value => pure value
  | none =>
    throwAt (.valueNotFound type) ("Expected " ++ type ++ " value but found null instead.")

/-- `decode(_:forKey:)` for a type with the given `unbox`. -/
def decodeForKey (type keyType : String) (unbox : NSObject K → DecodeM K (Option α))
    (entries : List (String × NSObject K)) (key : CodingKey) : DecodeM K α := do
  let entry ← requireKey keyType entries key
  underKey key do
    let value ← unbox entry
    requireValue type value

/-! ### Unkeyed containers -/

/-- `require(value:)` of the unkeyed container, which appends the index once more. -/
def requireElement (type : String) (i : ℕ) : Option α → DecodeM K α
  | some value => pure value
  | none => fun d =>
    .error (.thrown (.valueNotFound type
      ⟨d.codingPath ++ [CodingKey.index i],
        "Expected " ++ type ++ " value but found null instead."⟩))

/-- `decode(_:)` of the unkeyed container at index `i`. -/
def decodeElement (type : String) (c : DecodableType K α) (i : ℕ) (element : NSObject K) :
    DecodeM K α :=
  underKey (CodingKey.index i) do
    let decoded ← unbox c element
    requireElement type i decoded

/-- The loop of `Array.init(from:)` over the elements from index `i` on. -/
def decodeElements (type : String) (c : DecodableType K α) :
    ℕ → List (NSObject K) → DecodeM K (List α)
  | _, [] => pure []
  | i, element :: elements => do
    let value ← decodeElement type c i element
    let values ← decodeElements type c (i + 1) elements
    pure (value :: values)

end FirestoreDecoder

/-! ## Conformances -/

namespace DecodableType

open FirestoreDecoder

variable (runtime : Runtime K)

def string : DecodableType K String := .decode (fun _ => none) (decodeSingleString runtime)

def data : DecodableType K Data := .native (unboxData runtime)

def array (type : String) (c : DecodableType K α) : DecodableType K (List α) :=
  .decode (fun _ => none) do
    let elements ← unkeyedContainer
    decodeElements type c 0 elements

/-- `UUID.init(from:)`. -/
def uuid : DecodableType K UUID :=
  .decode (fun _ => none) do
    let uuidString ← decodeSingleString runtime
    match UUID.parse uuidString with
    | some id => pure id
    | none => throwAt .dataCorrupted "Attempted to decode UUID from invalid UUID string."

variable [Field K] [LinearOrder K]

def float : DecodableType K K := .decode (fun _ => none) (decodeSingleFloat runtime)

/-- `GeoPoint` is passed through; any other value is decoded as a dictionary, out of which the
initializer of `GeoPoint` may stop the program. -/
def geoPoint : DecodableType K (GeoPoint K) :=
  .decode
    (fun value =>
      match value with
      | .leaf (.geoPoint geoPoint) => some geoPoint
      | _ => none)
    do
      let entries ← keyedContainer "GeoPointKeys"
      let latitude ← decodeForKey "Double" "GeoPointKeys" (unboxDouble runtime) entries
        (.field "latitude")
      let longitude ← decodeForKey "Double" "GeoPointKeys" (unboxDouble runtime) entries
        (.field "longitude")
      match GeoPoint.create latitude longitude with
      | some geoPoint => pure geoPoint
      | none => fun _ => .error .trap

/-- The fields of a `Location`, in order. -/
def locationFields (entries : List (String × NSObject K)) : DecodeM K (Location K) := do
  let id ← decodeForKey "UUID" "CodingKeys" (unbox (uuid runtime)) entries (.field "id")
  let lat ← decodeForKey "Double" "CodingKeys" (unboxDouble runtime) entries (.field "lat")
  let long ← decodeForKey "Double" "CodingKeys" (unboxDouble runtime) entries (.field "long")
  let title ← decodeForKey "String" "CodingKeys" (unboxString runtime) entries (.field "title")
  let subtitle ← decodeForKey "String" "CodingKeys" (unboxString runtime) entries
    (.field "subtitle")
  let directions ← decodeForKey "Array<String>" "CodingKeys"
    (unbox (array "String" (string runtime))) entries (.field "directions")
  let worldData ← decodeForKey "Data" "CodingKeys" (unbox (data runtime)) entries
    (.field "worldData")
  let transformationsX ← decodeForKey "Array<Float>" "CodingKeys"
    (unbox (array "Float" (float runtime))) entries (.field "transformationsX")
  let transformationsY ← decodeForKey "Array<Float>" "CodingKeys"
    (unbox (array "Float" (float runtime))) entries (.field "transformationsY")
  let transformationsZ ← decodeForKey "Array<Float>" "CodingKeys"
    (unbox (array "Float" (float runtime))) entries (.field "transformationsZ")
  let location ← decodeForKey "GeoPoint" "CodingKeys" (unbox (geoPoint runtime)) entries
    (.field "location")
  pure
    { id := id
      lat := lat
      long := long
      title := title
      subtitle := subtitle
      directions := directions
      worldData := worldData
      transformationsX := transformationsX
      transformationsY := transformationsY
      transformationsZ := transformationsZ
      location := location }

/-- The conformance that the compiler makes for `Location`. -/
def location : DecodableType K (Location K) :=
  .decode (fun _ => none) do
    let entries ← keyedContainer "CodingKeys"
    locationFields runtime entries

end DecodableType

namespace FirestoreDecoder

/-- `Firestore.Decoder.decode(_:from:)`. -/
def decode (type : String) (c : DecodableType K α) (container : List (String × NSObject K)) :
    Except Failure α :=
  match unbox c (.dictionary container) ⟨[.dictionary container], []⟩ with
  | .error failure => .error failure
  | .ok (some value, _) => .ok value
  | .ok (none, _) =>
    .error (.thrown (.valueNotFound type ⟨[], "The given dictionary was invalid"⟩))

end FirestoreDecoder

end EyeMaps
