import BoundMarkup.Number.Shortest

/-!
# JSON values

Values, their canonical form and their written form. A value as it is read keeps the members of
its objects as they were written; in the canonical form every name occurs once, with the value
written last, and the names are in ascending order of code points.
-/

namespace BoundMarkup.Json

open Number

/-- A number in a JSON text. -/
inductive Numeral where
  /-- A whole number. -/
  | integer (n : Int)
  /-- A number with a fraction or an exponent, or a whole number of great size. -/
  | float (x : Binary64)
deriving DecidableEq, Repr

/-- A JSON value. -/
inductive Value where
  /-- Nothing. -/
  | null
  /-- A truth value. -/
  | bool (b : Bool)
  /-- A number. -/
  | number (n : Numeral)
  /-- A string. -/
  | string (s : String)
  /-- An array. -/
  | array (items : List Value)
  /-- An object with its members. -/
  | object (members : List (String × Value))
deriving Repr

namespace Numeral

/-- Whether a number is zero. -/
def isZero : Numeral → Bool
  | integer n => n == 0
  | float x => x.isZero

/-- The text of a number. -/
def text : Numeral → List Char
  | integer n => intDigits n
  | float x => x.text

end Numeral

/-- Gives a name its value in a list of members in ascending order. -/
def putMember (name : String) (v : Value) : List (String × Value) → List (String × Value)
  | [] => [(name, v)]
  | (k, w) :: rest =>
    if name < k then (name, v) :: (k, w) :: rest
    else if name = k then (name, v) :: rest
    else (k, w) :: putMember name v rest

mutual

/-- The canonical form of a value. -/
def Value.canonical : Value → Value
  | .array items => .array (canonicalItems items)
  | .object members => .object (canonicalMembers [] members)
  | v => v

/-- The canonical forms of the items of an array. -/
def canonicalItems : List Value → List Value
  | [] => []
  | v :: rest => v.canonical :: canonicalItems rest

/-- Adds the canonical forms of members to members in ascending order. -/
def canonicalMembers (sorted : List (String × Value)) :
    List (String × Value) → List (String × Value)
  | [] => sorted
  | (name, v) :: rest => canonicalMembers (putMember name v.canonical sorted) rest

end

namespace Value

/-- Whether a value is `null`. -/
def isNull : Value → Bool
  | null => true
  | _ => false

/-- The member of that name, if the value is an object that has it. -/
def member? (v : Value) (name : String) : Option Value :=
  match v with
  | object members => (members.find? (·.1 = name)).map (·.2)
  | _ => none

end Value

/-- A digit of a hexadecimal number. -/
def hexDigit (n : Nat) : Char := (Nat.toDigits 16 n).headD '0'

/-- A character inside a written string. -/
def escapeChar (c : Char) : List Char :=
  match c with
  | '"' => ['\\', '"']
  | '\\' => ['\\', '\\']
  | '\x08' => ['\\', 'b']
  | '\x0c' => ['\\', 'f']
  | '\n' => ['\\', 'n']
  | '\r' => ['\\', 'r']
  | '\t' => ['\\', 't']
  | c =>
    if c.toNat < 0x20 then
      ['\\', 'u', '0', '0', hexDigit (c.toNat / 16), hexDigit (c.toNat % 16)]
    else [c]

/-- A string as it is written. -/
def writtenString (s : String) : List Char := '"' :: s.toList.flatMap escapeChar ++ ['"']

mutual

/-- The written form of a value, without spaces. -/
def Value.written : Value → List Char
  | .null => "null".toList
  | .bool b => (if b then "true" else "false").toList
  | .number n => n.text
  | .string s => writtenString s
  | .array items => '[' :: writtenItems items ++ [']']
  | .object members => '\x7b' :: writtenMembers members ++ ['\x7d']

/-- The written form of the items of an array. -/
def writtenItems : List Value → List Char
  | [] => []
  | [v] => v.written
  | v :: rest => v.written ++ ',' :: writtenItems rest

/-- The written form of the members of an object. -/
def writtenMembers : List (String × Value) → List Char
  | [] => []
  | [(name, v)] => writtenString name ++ ':' :: v.written
  | (name, v) :: rest => writtenString name ++ ':' :: v.written ++ ',' :: writtenMembers rest

end

namespace Value

/-- The text of a value, without spaces. -/
def text (v : Value) : String := String.ofList v.written

end Value

end BoundMarkup.Json
