import Mathlib.Data.List.Basic
import Mathlib.Data.String.Basic

/-!
# Paths of fields

`FieldPath` of the Firestore pod: the names on the way to a field of a document.  A path is printed
for the messages of errors and for the server in one format, its canonical string: the names in
order, separated by dots, with backticks around a name that is not an identifier.
`fromServerFormat` reads the format; where an assertion fails it stops the program (`none`).
-/

namespace EyeMaps

abbrev FieldPath := List String

namespace FieldPath

/-! ## Writing -/

def backtick : Char := Char.ofNat 96

/-- `IsValidIdentifier`: `[a-zA-Z_][a-zA-Z0-9_]*`. -/
def isValidIdentifier : List Char → Bool
  | [] => false
  | first :: rest => (first == '_' || first.isAlpha) && rest.all fun c => c == '_' || c.isAlphanum

/-- Backslashes and backticks are escaped by a backslash. -/
def escape (c : Char) : List Char :=
  if c = '\\' ∨ c = backtick then ['\\', c] else [c]

/-- `JoinEscaped::escaped_segment`. -/
def escapedSegment (segment : String) : List Char :=
  let escaped := segment.toList.flatMap escape
  if isValidIdentifier escaped then escaped else backtick :: escaped ++ [backtick]

/-- `CanonicalString`. -/
def canonicalString (path : FieldPath) : String :=
  String.ofList (List.intercalate ['.'] (path.map escapedSegment))

/-! ## Reading -/

/-- `finish_segment`; a segment must not be empty. -/
def finishSegment (segments : FieldPath) (segment : List Char) : Option FieldPath :=
  if segment = [] then none else some (segments ++ [String.ofList segment])

/-- The end of `FromServerFormatView`, with what its loop has found. -/
def finish (segments : FieldPath) (segment : List Char) (insideBackticks : Bool) :
    Option FieldPath := do
  let segments ← finishSegment segments segment
  if insideBackticks then none else some segments

/-- The loop of `FromServerFormatView`: the segments, the segment that is being read, and whether it
is in backticks, where dots are part of it.  A null ends the loop. -/
def parse (segments : FieldPath) (segment : List Char) (insideBackticks : Bool) :
    List Char → Option FieldPath
  | [] => finish segments segment insideBackticks
  | c :: rest =>
    if c = '\x00' then finish segments segment insideBackticks
    else if c = '.' then
      if insideBackticks then parse segments (segment ++ [c]) insideBackticks rest
      else (finishSegment segments segment).bind fun segments =>
        parse segments [] insideBackticks rest
    else if c = backtick then parse segments segment (!insideBackticks) rest
    else if c = '\\' then
      match rest with
      | [] => none
      | escaped :: rest => parse segments (segment ++ [escaped]) insideBackticks rest
    else parse segments (segment ++ [c]) insideBackticks rest

/-- `FromServerFormat`. -/
def fromServerFormat (path : String) : Option FieldPath := parse [] [] false path.toList

end FieldPath

end EyeMaps
