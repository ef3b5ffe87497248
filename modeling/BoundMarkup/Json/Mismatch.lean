import BoundMarkup.Json.Value
import BoundMarkup.Text.Quoted

/-!
# Values that are not the ones asked for

Where a text has to hold a record of a certain form, a value of another form is a mismatch.
-/

namespace BoundMarkup.Json

open Text

/-- How a value differs from the one asked for. -/
inductive Mismatch where
  /-- It is of another type. -/
  | wrongType (found expected : String)
  /-- It is of the type but out of range. -/
  | wrongValue (found expected : String)
  /-- A name is none of the known ones. -/
  | unknownVariant (name : String) (known : List String)
  /-- A field is missing. -/
  | missingField (name : String)
  /-- A field occurs twice. -/
  | duplicateField (name : String)
  /-- A sequence has another length. -/
  | wrongLength (length : Nat) (expected : String)
  /-- It has none of the forms of a type. -/
  | noForm (type : String)
deriving DecidableEq, Repr

namespace Mismatch

/-- A name between back quotes. -/
def ticked (name : String) : String := "\x60" ++ name ++ "\x60"

/-- What a mismatch says. -/
def message : Mismatch → String
  | wrongType found expected => "invalid type: " ++ found ++ ", expected " ++ expected
  | wrongValue found expected => "invalid value: " ++ found ++ ", expected " ++ expected
  | unknownVariant name known =>
    "unknown variant " ++ ticked name ++ ", expected one of " ++
      String.intercalate ", " (known.map ticked)
  | missingField name => "missing field " ++ ticked name
  | duplicateField name => "duplicate field " ++ ticked name
  | wrongLength length expected =>
    "invalid length " ++ toString length ++ ", expected " ++ expected
  | noForm type => "data did not match any variant of untagged enum " ++ type

end Mismatch

namespace Value

/-- What a message calls a value. -/
def described : Value → String
  | null => "null"
  | bool b => "boolean " ++ Mismatch.ticked (if b then "true" else "false")
  | number (.integer n) =>
    "integer " ++ Mismatch.ticked (String.ofList (Numeral.text (.integer n)))
  | number (.float x) => "floating point " ++ Mismatch.ticked (String.ofList x.text)
  | string s => "string " ++ quoted s
  | array _ => "sequence"
  | object _ => "map"

end Value

end BoundMarkup.Json
