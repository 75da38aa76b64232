import EyeMaps.Framework.Document
import EyeMaps.Model.Location

/-!
# The objects of a document

What a dictionary handed to Firestore, or received from it, is made of: trees of Foundation and
Firestore objects.  The classes are those that the converter of the Firestore pod knows; every other
class is `other`.  The sentinels of array unions and removals hold objects themselves, so that
scalars and sentinels are defined together.
-/

namespace EyeMaps

open Framework

/-- An `NSNumber` that is not a Boolean, by its `objCType`: of an integer type, of a floating-point
one, or of a character type, such as Swift makes of an `Int8`. -/
inductive NSNumber (K : Type)
  | integer (value : ℤ)
  | double (value : K)
  | char (value : ℤ)
  deriving DecidableEq

structure Timestamp where
  seconds : ℤ
  nanoseconds : ℕ
  deriving DecidableEq

/-- An `NSDate`, by the whole seconds of its `timeIntervalSince1970` and the nanoseconds after
them. -/
structure NSDate where
  seconds : ℤ
  nanoseconds : ℕ
  deriving DecidableEq

structure DatabaseId where
  projectId : String
  databaseId : String
  deriving DecidableEq

/-- The operand of `FieldValue.increment(_:)`, which takes an `Int64` or a `Double`. -/
inductive IncrementOperand (K : Type)
  | integer (value : ℤ)
  | double (value : K)
  deriving DecidableEq

mutual

/-- The sentinels `FieldValue.delete()`, `FieldValue.serverTimestamp()`,
`FieldValue.arrayUnion(_:)`, `FieldValue.arrayRemove(_:)` and `FieldValue.increment(_:)`. -/
inductive FIRFieldValue (K : Type)
  | delete
  | serverTimestamp
  | arrayUnion (elements : List (Document (Scalar K)))
  | arrayRemove (elements : List (Document (Scalar K)))
  | increment (operand : IncrementOperand K)

/-- The objects that are not containers; `other` stands for every class that Firestore does not
take, with its name. -/
inductive Scalar (K : Type)
  | null
  | bool (b : Bool)
  | number (number : NSNumber K)
  | string (string : String)
  | data (data : Data)
  | geoPoint (geoPoint : GeoPoint K)
  | date (date : NSDate)
  | timestamp (timestamp : Timestamp)
  | reference (database : DatabaseId) (path : String)
  | fieldValue (sentinel : FIRFieldValue K)
  | other (className : String)

end

abbrev NSObject (K : Type) := Document (Scalar K)

/-- `operand`, an `NSNumber` of the type that it was made of. -/
def IncrementOperand.number {K : Type} : IncrementOperand K → NSNumber K
  | .integer value => .integer value
  | .double value => .double value

end EyeMaps
