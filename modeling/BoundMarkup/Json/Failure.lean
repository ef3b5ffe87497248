import BoundMarkup.Json.Mismatch
import BoundMarkup.Text.Class

/-!
# Failures of reading JSON

Why a text is refused, and where. While a text is read, a place is told by the number of bytes
behind it; from that and the text follow the line and the column, which counts bytes.
-/

namespace BoundMarkup.Json

open Text

/-- Why a text is refused. -/
inductive Reason where
  /-- The text ends inside an array. -/
  | endInArray
  /-- The text ends inside an object. -/
  | endInObject
  /-- The text ends inside a string. -/
  | endInString
  /-- The text ends where a value is to come. -/
  | endInValue
  /-- There is no colon behind a name. -/
  | expectedColon
  /-- There is neither a comma nor a bracket behind an item. -/
  | expectedCommaOrBracket
  /-- There is neither a comma nor a brace behind a member. -/
  | expectedCommaOrBrace
  /-- A word that begins like `null`, `true` or `false` goes on otherwise. -/
  | expectedWord
  /-- There is no value where one is to come. -/
  | expectedValue
  /-- An escape in a string has no meaning. -/
  | invalidEscape
  /-- A number is malformed. -/
  | invalidNumber
  /-- A number is too great. -/
  | numberOutOfRange
  /-- A control character stands in a string. -/
  | controlCharacter
  /-- The name of a member is no string. -/
  | nameNotString
  /-- One half of a surrogate pair stands alone. -/
  | loneSurrogate
  /-- A comma is not followed by an item or a member. -/
  | trailingComma
  /-- The text goes on behind the value. -/
  | trailingText
  /-- The second half of a surrogate pair is missing. -/
  | endOfSurrogates
  /-- Arrays and objects are nested too deeply. -/
  | tooDeep
  /-- The text has a value that is not the one asked for. -/
  | mismatch (m : Mismatch)
deriving DecidableEq, Repr

namespace Reason

/-- What a reason says. -/
def message : Reason → String
  | endInArray => "EOF while parsing a list"
  | endInObject => "EOF while parsing an object"
  | endInString => "EOF while parsing a string"
  | endInValue => "EOF while parsing a value"
  | expectedColon => "expected \x60:\x60"
  | expectedCommaOrBracket => "expected \x60,\x60 or \x60]\x60"
  | expectedCommaOrBrace => "expected \x60,\x60 or \x60\x7d\x60"
  | expectedWord => "expected ident"
  | expectedValue => "expected value"
  | invalidEscape => "invalid escape"
  | invalidNumber => "invalid number"
  | numberOutOfRange => "number out of range"
  | controlCharacter =>
    "control character (\\u0000-\\u001F) found while parsing a string"
  | nameNotString => "key must be a string"
  | loneSurrogate => "lone leading surrogate in hex escape"
  | trailingComma => "trailing comma"
  | trailingText => "trailing characters"
  | endOfSurrogates => "unexpected end of hex escape"
  | tooDeep => "recursion limit exceeded"
  | mismatch m => m.message

end Reason

/-- A place in a text. Lines count from one, columns are the bytes since the last line feed. -/
structure Place where
  /-- The line. -/
  line : Nat := 1
  /-- The column. -/
  column : Nat := 0
deriving DecidableEq, Repr

namespace Place

/-- The place that many bytes behind another, at which the given text begins. -/
def forward (p : Place) : Nat → List Char → Place
  | 0, _ => p
  | bytes + 1, [] => { p with column := p.column + (bytes + 1) }
  | bytes + 1, c :: s =>
    if bytes + 1 < c.utf8Size then { p with column := p.column + (bytes + 1) }
    else
      forward (if c = '\n' then { line := p.line + 1, column := 0 }
        else { p with column := p.column + c.utf8Size }) (bytes + 1 - c.utf8Size) s

end Place

/-- An error in a text: why it is refused, and where. -/
structure Error where
  /-- Why the text is refused. -/
  reason : Reason
  /-- The place that is to blame. -/
  place : Place
deriving DecidableEq, Repr

namespace Error

/-- The message of an error. -/
def message (e : Error) : String :=
  e.reason.message ++ " at line " ++ toString e.place.line ++ " column " ++
    toString e.place.column

end Error

/-- A failure of reading: why, and how many bytes were left. -/
structure Failure where
  /-- Why reading fails. -/
  reason : Reason
  /-- The number of bytes behind the place of the failure. -/
  unread : Nat
deriving DecidableEq, Repr

namespace Failure

/-- The failure at the place in front of the given rest. -/
def before (reason : Reason) (rest : List Char) : Failure := { reason, unread := byteSize rest }

/-- The failure one byte behind that place, where the byte is the one to blame. -/
def on (reason : Reason) (rest : List Char) : Failure :=
  { reason, unread := byteSize rest - 1 }

/-- The error in a text that a failure to read it shows. -/
def inText (f : Failure) (s : List Char) : Error where
  reason := f.reason
  place := ({} : Place).forward (byteSize s - f.unread) s

end Failure

end BoundMarkup.Json
