import EyeMaps.Framework.Triple
import EyeMaps.Model.FieldPath
import EyeMaps.Model.FieldValue
import Mathlib.Data.Finset.Insert

/-!
# Converting a dictionary to a document

`FSTUserDataConverter` of the Firestore pod, which turns the dictionary handed to `setData` into the
values that are written, and the contexts in which it parses.  A context knows the path to the
object that is parsed, but not within an array.  What is found on the way is accumulated: the paths
of the fields for a field mask, and the transforms that sentinels stand for, which are not values.
An invalid argument raises an exception with a message that names the field.
-/

namespace EyeMaps

open Framework

variable {K α : Type}

/-! ## Errors, accumulators and contexts -/

/-- How parsing can end without a value. -/
inductive ParseFailure
  | invalidArgument (message : String)
  | invalidTimestamp (message : String)
  | hardAssert
  deriving DecidableEq

/-- The API method that the data came from. -/
inductive UserDataSource
  | set
  | mergeSet
  | update
  | argument
  | arrayArgument
  deriving DecidableEq

inductive TransformOperation (K : Type)
  | serverTimestamp
  | arrayUnion (elements : List (FieldValue K))
  | arrayRemove (elements : List (FieldValue K))
  | numericIncrement (operand : FieldValue K)

structure ParseAccumulator (K : Type) where
  fieldMask : Finset FieldPath
  fieldTransforms : List (FieldPath × TransformOperation K)

abbrev ParseM (K : Type) := StateT (ParseAccumulator K) (Except ParseFailure)

/-- `ThrowInvalidArgument` -/
def throwInvalidArgument (message : String) : ParseM K α :=
  fun _ => .error (.invalidArgument message)

/-- `HARD_FAIL`, and a `HARD_ASSERT` that does not hold. -/
def hardFail : ParseM K α := fun _ => .error .hardAssert

/-- Where in the data an object is, and which method the data came from. -/
structure ParseContext where
  dataSource : UserDataSource
  path : Option FieldPath
  arrayElement : Bool
  deriving DecidableEq

namespace ParseAccumulator

def empty : ParseAccumulator K := ⟨∅, []⟩

def addToFieldMask (fieldPath : FieldPath) : ParseM K Unit :=
  fun accumulator =>
    .ok ((), { accumulator with fieldMask := insert fieldPath accumulator.fieldMask })

def addToFieldTransforms (fieldPath : FieldPath) (operation : TransformOperation K) :
    ParseM K Unit :=
  fun accumulator => .ok ((),
    { accumulator with
      fieldTransforms := accumulator.fieldTransforms ++ [(fieldPath, operation)] })

end ParseAccumulator

namespace ParseContext

/-- `RootContext` -/
def root (dataSource : UserDataSource) : ParseContext := ⟨dataSource, some [], false⟩

def write (context : ParseContext) : Bool :=
  match context.dataSource with
  | .set => true
  | .mergeSet => true
  | .update => true
  | .argument => false
  | .arrayArgument => false

def fieldDescription (context : ParseContext) : String :=
  match context.path with
  | none => ""
  | some [] => ""
  | some path => " (found in field " ++ FieldPath.canonicalString path ++ ")"

/-- The context of one part of the object. -/
def child (context : ParseContext) : Document.Step → ParseContext
  | .key fieldName =>
    { context with path := context.path.map (· ++ [fieldName]), arrayElement := false }
  | .index _ => { context with path := none, arrayElement := true }

/-- The name begins and ends with `RESERVED_FIELD_DESIGNATOR`. -/
def isReserved (segment : String) : Bool :=
  ['_', '_'].isPrefixOf segment.toList && ['_', '_'].isSuffixOf segment.toList

def validatePathSegment (context : ParseContext) (segment : String) : ParseM K Unit :=
  if segment = "" then
    throwInvalidArgument
      ("Invalid data. Document fields must not be empty" ++ context.fieldDescription)
  else if context.write && isReserved segment then
    throwInvalidArgument
      ("Invalid data. Document fields cannot begin and end with \"__\"" ++
        context.fieldDescription)
  else pure ()

/-- `ChildContext` of a field. -/
def childContext (context : ParseContext) (fieldName : String) : ParseM K ParseContext := do
  (context.child (.key fieldName)).validatePathSegment fieldName
  pure (context.child (.key fieldName))

end ParseContext

/-! ## The converter -/

/-- `Truncate`: a timestamp in microseconds. -/
def Timestamp.truncate (timestamp : Timestamp) : Timestamp :=
  { timestamp with nanoseconds := timestamp.nanoseconds / 1000 * 1000 }

namespace NSDate

def timestamp (date : NSDate) : Timestamp := ⟨date.seconds, date.nanoseconds⟩

/-- The message of the exception that `timestampWithDate:` raises for the date, if it does. -/
def invalid (date : NSDate) : Option String :=
  if 1000000000 ≤ date.nanoseconds then
    some ("Timestamp nanoseconds out of range: " ++ toString date.nanoseconds)
  else if date.seconds < -62135596800 then
    some ("Timestamp seconds out of range: " ++ toString date.seconds)
  else if 253402300800 ≤ date.seconds then
    some ("Timestamp seconds out of range: " ++ toString date.seconds)
  else none

end NSDate

def FIRFieldValue.methodName : FIRFieldValue K → String
  | .delete => "FieldValue.delete()"
  | .serverTimestamp => "FieldValue.serverTimestamp()"
  | .arrayUnion _ => "FieldValue.arrayUnion()"
  | .arrayRemove _ => "FieldValue.arrayRemove()"
  | .increment _ => "FieldValue.increment()"

namespace UserDataConverter

open ParseAccumulator

def llongMax : ℤ := 9223372036854775807

variable (database : DatabaseId)

/-- `parseScalarValue:context:`; a sentinel is not passed to it. -/
def parseScalarValue (context : ParseContext) : Scalar K → ParseM K (FieldValue K)
  | .null => pure (.scalar .null)
  | .bool b => pure (.scalar (.boolean b))
  | .number (.integer value) =>
    if llongMax < value then
      throwInvalidArgument
        ("NSNumber (" ++ toString value ++ ") is too large" ++ context.fieldDescription)
    else pure (.scalar (.integer value))
  | .number (.double value) => pure (.scalar (.double value))
  -- The type of a character is taken for that of a Boolean.
  | .number (.char value) => pure (.scalar (.boolean (value != 0)))
  | .string string => pure (.scalar (.string string))
  | .data data => pure (.scalar (.blob data))
  | .geoPoint geoPoint => pure (.scalar (.geoPoint geoPoint))
  | .date date =>
    match date.invalid with
    | some message => fun _ => .error (.invalidTimestamp message)
    | none => pure (.scalar (.timestamp date.timestamp))
  | .timestamp timestamp => pure (.scalar (.timestamp timestamp.truncate))
  | .reference other key =>
    if other ≠ database then
      throwInvalidArgument
        ("Document Reference is for database " ++ other.projectId ++ "/" ++ other.databaseId ++
          " but should be for database " ++ database.projectId ++ "/" ++ database.databaseId ++
          context.fieldDescription)
    else pure (.scalar (.reference database key))
  | .fieldValue _ => hardFail
  | .other className =>
    throwInvalidArgument ("Unsupported type: " ++ className ++ context.fieldDescription)

/-- Parse with an accumulator of its own, which is dropped afterwards. -/
def parseApart (parse : ParseM K α) : ParseM K α :=
  fun accumulator =>
    match parse empty with
    | .ok (value, _) => .ok (value, accumulator)
    | .error failure => .error failure

/-- `parsedQueryValue:` of a number. -/
def parsedQueryValue (operand : NSNumber K) : ParseM K (FieldValue K) :=
  parseApart (parseScalarValue database (.root .argument) (.number operand))

/-- The assertion about each element of an array transform. -/
def assertElement (parsedElement : Option (FieldValue K)) : ParseM K (FieldValue K) :=
  fun accumulator =>
    match parsedElement with
    | some value =>
      if accumulator.fieldTransforms.isEmpty then .ok (value, accumulator) else .error .hardAssert
    | none => .error .hardAssert

/-- `NumericIncrementTransform`, which asserts that the operand is a number. -/
def numericIncrementTransform (operand : FieldValue K) : ParseM K (TransformOperation K) :=
  match operand.tree with
  | .leaf (.integer _) => pure (.numericIncrement operand)
  | .leaf (.double _) => pure (.numericIncrement operand)
  | _ => hardFail

/-- The path of an object that is not a dictionary joins the field mask. -/
def addPathToFieldMask (context : ParseContext) : ParseM K Unit :=
  match context.path with
  | some path => addToFieldMask path
  | none => pure ()

/-- The path of a dictionary without entries joins the field mask, unless it is the data itself. -/
def addEmptyToFieldMask (context : ParseContext) : ParseM K Unit :=
  match context.path with
  | some [] => pure ()
  | some path => addToFieldMask path
  | none => pure ()

mutual

/-- `parseData:context:`, with `parseDictionary:context:`; there is no value for a sentinel. -/
def parseData (context : ParseContext) : NSObject K → ParseM K (Option (FieldValue K))
  | .dictionary dict =>
    if dict.isEmpty then do
      addEmptyToFieldMask context
      pure (some ObjectValue.empty.asFieldValue)
    else do
      let result ← parseEntries context dict .empty
      pure (some result.asFieldValue)
  | .leaf (.fieldValue fieldValue) => do
    parseSentinelFieldValue context fieldValue
    pure none
  | .array array => do
    addPathToFieldMask context
    if context.arrayElement && context.dataSource != .arrayArgument then
      throwInvalidArgument "Nested arrays are not supported"
    else
      let result ← parseElements context 0 array
      pure (some (.fromArray result))
  | .leaf input => do
    addPathToFieldMask context
    let value ← parseScalarValue database context input
    pure (some value)

/-- The loop of `parseDictionary:context:`. -/
def parseEntries (context : ParseContext) :
    List (String × NSObject K) → ObjectValue K → ParseM K (ObjectValue K)
  | [], result => pure result
  | (key, value) :: dict, result => do
    let childContext ← context.childContext key
    let parsedValue ← parseData childContext value
    match parsedValue with
    | some parsedValue => parseEntries context dict (result.setChild key parsedValue)
    | none => parseEntries context dict result

/-- The loop of `parseArray:context:` from index `i` on; a sentinel is replaced by null. -/
def parseElements (context : ParseContext) (i : ℕ) :
    List (NSObject K) → ParseM K (List (FieldValue K))
  | [] => pure []
  | entry :: array => do
    let parsedEntry ← parseData (context.child (.index i)) entry
    let result ← parseElements context (i + 1) array
    pure ((parsedEntry.getD (.scalar .null)) :: result)

/-- The loop of `parseArrayTransformElements:` from index `i` on. -/
def parseTransformElements (i : ℕ) : List (NSObject K) → ParseM K (List (FieldValue K))
  | [] => pure []
  | element :: elements => do
    let parsedElement ← parseData ((ParseContext.root .argument).child (.index i)) element
    let value ← assertElement parsedElement
    let values ← parseTransformElements (i + 1) elements
    pure (value :: values)

/-- `parseSentinelFieldValue:context:` -/
def parseSentinelFieldValue (context : ParseContext) (fieldValue : FIRFieldValue K) :
    ParseM K Unit :=
  if context.write = false then
    throwInvalidArgument
      (fieldValue.methodName ++ " can only be used with updateData() and setData()" ++
        context.fieldDescription)
  else
    match context.path with
    | none =>
      throwInvalidArgument (fieldValue.methodName ++ " is not currently supported inside arrays")
    | some path =>
      match fieldValue with
      | .delete =>
        match context.dataSource with
        | .mergeSet => addToFieldMask path
        | .update =>
          if path = [] then hardFail
          else
            throwInvalidArgument
              ("FieldValue.delete() can only appear at the top level of your update data" ++
                context.fieldDescription)
        | _ =>
          throwInvalidArgument
            ("FieldValue.delete() can only be used with updateData() and setData() with " ++
              "merge:true" ++ context.fieldDescription)
      | .serverTimestamp => addToFieldTransforms path .serverTimestamp
      | .arrayUnion elements => do
        let parsedElements ← parseApart (parseTransformElements 0 elements)
        addToFieldTransforms path (.arrayUnion parsedElements)
      | .arrayRemove elements => do
        let parsedElements ← parseApart (parseTransformElements 0 elements)
        addToFieldTransforms path (.arrayRemove parsedElements)
      | .increment operand => do
        let operand ← parsedQueryValue database operand.number
        let numericIncrement ← numericIncrementTransform operand
        addToFieldTransforms path numericIncrement

end

/-! ## `setData` -/

/-- `ParsedSetData` of a `setData` that does not merge. -/
structure ParsedSetData (K : Type) where
  data : ObjectValue K
  fieldTransforms : List (FieldPath × TransformOperation K)

/-- `ObjectValue(_: FieldValue)`, of a map. -/
def objectValue : FieldValue K → Option (ObjectValue K)
  | ⟨.dictionary entries, sorted⟩ => some ⟨entries, sorted⟩
  | _ => none

/-- `parsedSetData:`, which drops the field mask. -/
def parsedSetData (input : List (String × NSObject K)) : Except ParseFailure (ParsedSetData K) :=
  match parseData database (.root .set) (.dictionary input) empty with
  | .error failure => .error failure
  | .ok (updateData, accumulator) =>
    match updateData.bind objectValue with
    | some data => .ok ⟨data, accumulator.fieldTransforms⟩
    | none => .error .hardAssert

end UserDataConverter

end EyeMaps
