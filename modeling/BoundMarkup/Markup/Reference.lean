import BoundMarkup.Text.Class
import BoundMarkup.Text.Search

/-!
# Character references and escapes

A reference is a name between `&` and `;` that stands for a character, either by a code point
(`&#65;`, `&#x41;`) or by a name from a fixed table. A name without a meaning stands for itself.

`escapeText` and `escapeValue` write a text such that `decodeReferences` reads it back.
-/

namespace BoundMarkup.Markup

open Text

/-- The named references. -/
def namedReferences : List (String × Char) :=
  [("lt", '<'), ("gt", '>'), ("amp", '&'), ("apos", '\''), ("quot", '"'), ("nbsp", '\u00a0'),
   ("copy", '\u00a9'), ("reg", '\u00ae'), ("trade", '\u2122'), ("mdash", '\u2014'),
   ("ndash", '\u2013'), ("hellip", '\u2026'), ("laquo", '\u00ab'), ("raquo", '\u00bb'),
   ("lsquo", '\u2018'), ("rsquo", '\u2019'), ("ldquo", '\u201c'), ("rdquo", '\u201d'),
   ("middot", '\u00b7'), ("times", '\u00d7'), ("Tab", '\t'), ("NewLine", '\n'), ("colon", ':')]

/-- The number that digits continue, or `none` at a character that is no digit of the base. -/
def digitsFrom (base value : Nat) : List Char → Option Nat
  | [] => some value
  | c :: s =>
    match digitValue? c with
    | some d => if d < base then digitsFrom base (base * value + d) s else none
    | none => none

/-- An unsigned number: at least one digit, after at most one plus sign. -/
def number? (base : Nat) : List Char → Option Nat
  | [] => none
  | ['+'] => none
  | '+' :: s => digitsFrom base 0 s
  | s => digitsFrom base 0 s

/-- The character of a code point; surrogates and numbers beyond U+10FFFF have none. -/
def charOf? (n : Nat) : Option Char :=
  if n.isValidChar then some (Char.ofNat n) else none

/-- The character that a reference name stands for, if it has a meaning. -/
def meaning? (name : List Char) : Option Char :=
  match name with
  | '#' :: 'x' :: digits => (number? 16 digits).bind charOf?
  | '#' :: 'X' :: digits => (number? 16 digits).bind charOf?
  | '#' :: digits => (number? 10 digits).bind charOf?
  | _ => (namedReferences.find? fun r => r.1.toList = name).map (·.2)

/-- The text that the reference of that name stands for. A name without a meaning is kept as it
was written. -/
def decodeReference (name : List Char) : List Char :=
  match meaning? name with
  | some c => [c]
  | none => '&' :: name ++ [';']

/-- The form of a reference name inside an attribute value: at most 32 letters and digits, the
first of which may be a number sign instead. -/
def isReferenceName : List Char → Bool
  | [] => false
  | c :: s =>
    s.length < 32 && (c == '#' || isLetter c || isDigit c) && s.all fun d => isLetter d || isDigit d

/-- For the text after an ampersand: the name of the reference that it begins with and what
follows the semicolon. -/
def reference? (s : List Char) : Option (List Char × List Char) :=
  match cutAt [';'] s with
  | some (name, rest) => if isReferenceName name then some (name, rest) else none
  | none => none

theorem append_of_reference? {s name rest : List Char} (h : reference? s = some (name, rest)) :
    s = name ++ ';' :: rest := by
  unfold reference? at h
  split at h
  · next n r hc =>
    split at h
    · cases h
      simpa using append_of_cutAt hc
    · cases h
  · cases h

/-- Replaces every reference by what it stands for. An ampersand that begins no reference stays. -/
def decodeReferences : List Char → List Char
  | [] => []
  | '&' :: s =>
    match _h : reference? s with
    | some (name, rest) => decodeReference name ++ decodeReferences rest
    | none => '&' :: decodeReferences s
  | c :: s => c :: decodeReferences s
termination_by s => s.length
decreasing_by
  all_goals simp_all
  have := append_of_reference? _h
  simp [this]
  omega

/-- A character of escaped text. -/
def escapeTextChar : Char → List Char
  | '&' => "&amp;".toList
  | '<' => "&lt;".toList
  | '>' => "&gt;".toList
  | c => [c]

/-- A character of an escaped attribute value. -/
def escapeValueChar : Char → List Char
  | '&' => "&amp;".toList
  | '"' => "&quot;".toList
  | '<' => "&lt;".toList
  | '>' => "&gt;".toList
  | c => [c]

/-- Text as it is written between tags. -/
def escapeText (s : List Char) : List Char := s.flatMap escapeTextChar

/-- A value as it is written between double quotes. -/
def escapeValue (s : List Char) : List Char := s.flatMap escapeValueChar

end BoundMarkup.Markup
