import BoundMarkup.Json.Numeral
import BoundMarkup.Text.Parsed

/-!
# Reading JSON

A reader for each kind of value. All of them read at the front of a text and return what they
read together with the rest and the fact that the rest is shorter, which is why reading ends.
Arrays and objects may be nested up to a fixed depth.
-/

namespace BoundMarkup.Json

open Text

/-- A reader for things of a type. -/
abbrev Reader (α : Type) := (s : List Char) → Except Failure (Parsed α s)

/-- White space between the parts of a JSON text. -/
def isSpace (c : Char) : Bool := c == ' ' || c == '\n' || c == '\t' || c == '\r'

/-- The text without white space in front. -/
def skipSpace (s : List Char) : List Char := s.dropWhile isSpace

theorem length_skipSpace_le (s : List Char) : (skipSpace s).length ≤ s.length :=
  (List.dropWhile_sublist _).length_le

/-! ### Strings -/

/-- The number that four hexadecimal digits stand for. -/
def hexNumber? (a b c d : Char) : Option Nat := do
  let a ← digitValue? a
  let b ← digitValue? b
  let c ← digitValue? c
  let d ← digitValue? d
  return ((a * 16 + b) * 16 + c) * 16 + d

/-- The failure of reading four hexadecimal digits: four bytes are taken, if there are so many. -/
def hexFailure (s : List Char) : Failure :=
  if byteSize s < 4 then .before .endInString []
  else { reason := .invalidEscape, unread := byteSize s - 4 }

/-- Reads four hexadecimal digits. -/
def readHex : Reader Nat
  | a :: b :: c :: d :: rest =>
    match hexNumber? a b c d with
    | some n => .ok { value := n, rest, shorter := by simp; omega }
    | none => .error (hexFailure (a :: b :: c :: d :: rest))
  | s => .error (hexFailure s)

/-- Whether a number is the first half of a surrogate pair. -/
def isLeading (n : Nat) : Bool := 0xD800 ≤ n && n < 0xDC00

/-- Whether a number is the second half of a surrogate pair. -/
def isTrailing (n : Nat) : Bool := 0xDC00 ≤ n && n < 0xE000

/-- The character of a surrogate pair. -/
def ofSurrogates (leading trailing : Nat) : Char :=
  Char.ofNat (0x10000 + (leading - 0xD800) * 0x400 + (trailing - 0xDC00))

/-- Reads the second half of a surrogate pair, with its escape. -/
def readTrailing (leading : Nat) : Reader Char
  | [] => .error (.before .endInString [])
  | ['\\'] => .error (.before .endInString [])
  | '\\' :: 'u' :: s =>
    match readHex s with
    | .error e => .error e
    | .ok p =>
      if isTrailing p.value then
        .ok ((p.map (ofSurrogates leading)).within (by simp; omega))
      else .error (.before .loneSurrogate p.rest)
  | '\\' :: s => .error (.on .endOfSurrogates s)
  | s => .error (.on .endOfSurrogates s)

/-- Reads an escape by code point, behind the letter. -/
def readCodePoint : Reader Char := fun s =>
  match readHex s with
  | .error e => .error e
  | .ok p =>
    -- The second half of a pair may not come first, and the first half may not come alone.
    if isTrailing p.value then .error (.before .loneSurrogate p.rest)
    else if isLeading p.value then
      match readTrailing p.value p.rest with
      | .error e => .error e
      | .ok q => .ok (q.within (Nat.le_of_lt p.shorter))
    else .ok (p.map Char.ofNat)

/-- The character that a letter behind a backslash stands for. -/
def escapeMeaning? : Char → Option Char
  | '"' => some '"'
  | '\\' => some '\\'
  | '/' => some '/'
  | 'b' => some '\x08'
  | 'f' => some '\x0c'
  | 'n' => some '\n'
  | 'r' => some '\r'
  | 't' => some '\t'
  | _ => none

/-- Reads an escape behind its backslash. -/
def readEscape : Reader Char
  | [] => .error (.before .endInString [])
  | 'u' :: s => (readCodePoint s).map (·.behind 'u')
  | c :: s =>
    match escapeMeaning? c with
    | some value => .ok (.first value c s)
    | none => .error (.on .invalidEscape (c :: s))

/-- Reads a string behind its opening quote. -/
def readString (s : List Char) : Except Failure (Parsed (List Char) s) :=
  match s with
  | [] => .error (.before .endInString [])
  | c :: s =>
    if c = '"' then .ok (.first [] c s)
    else if c = '\\' then
      match readEscape s with
      | .error e => .error e
      | .ok p =>
        match readString p.rest with
        | .error e => .error e
        | .ok q =>
          .ok ((q.map (p.value :: ·)).within (p.rest_le_cons c))
    else if c.toNat < 0x20 then .error (.on .controlCharacter (c :: s))
    else
      match readString s with
      | .error e => .error e
      | .ok q => .ok ((q.map (c :: ·)).behind c)
termination_by s.length
decreasing_by
  · have := p.shorter
    simp
    omega
  · simp

/-! ### Sequences -/

/-- What comes next in a sequence. -/
inductive Upcoming (s : List Char) where
  /-- The sequence ends. -/
  | finished (rest : List Char) (h : rest.length < s.length)
  /-- There is a further part. -/
  | part (rest : List Char) (h : rest.length ≤ s.length)

/-- Looks for the next part of a sequence: behind the opening mark or behind a comma. -/
def upcoming (closing : Char) (atEnd expected : Reason) (first : Bool) (s : List Char) :
    Except Failure (Upcoming s) :=
  match h : skipSpace s with
  | [] => .error (.before atEnd [])
  | c :: t =>
    have hs : t.length < s.length := by
      have := length_skipSpace_le s
      simp [h] at this
      omega
    if c = closing then .ok (.finished t hs)
    else if first then .ok (.part (c :: t) hs)
    else if c = ',' then
      match h' : skipSpace t with
      | [] => .error (.before .endInValue [])
      | d :: u =>
        -- A comma promises a further part.
        if d = closing then .error (.on .trailingComma (d :: u))
        else .ok (.part (d :: u) (by
          have := length_skipSpace_le t
          simp [h'] at this ⊢
          omega))
    else .error (.on expected (c :: t))

/-- Reads a sequence up to its closing mark. `part` reads a part and brings the state, which
begins as `state`, up to date. -/
def readSequence {σ : Type} (closing : Char) (atEnd expected : Reason) (part : σ → Reader σ)
    (first : Bool) (state : σ) (s : List Char) : Except Failure (Parsed σ s) :=
  match upcoming closing atEnd expected first s with
  | .error e => .error e
  | .ok (.finished rest h) => .ok { value := state, rest, shorter := h }
  | .ok (.part rest h) =>
    match part state rest with
    | .error e => .error e
    | .ok p =>
      match readSequence closing atEnd expected part false p.value p.rest with
      | .error e => .error e
      | .ok q =>
        .ok (q.within (by
          have := p.shorter
          omega))
termination_by s.length
decreasing_by
  have := p.shorter
  omega

/-- Reads the parts of an array behind its bracket. -/
def readArray {σ : Type} (part : σ → Reader σ) (state : σ) : Reader σ :=
  readSequence ']' .endInArray .expectedCommaOrBracket part true state

/-- Reads the parts of an object behind its brace. -/
def readObject {σ : Type} (part : σ → Reader σ) (state : σ) : Reader σ :=
  readSequence '\x7d' .endInObject .expectedCommaOrBrace part true state

/-- A part that is added in front of those read before it. -/
def collecting {α : Type} (part : Reader α) (latestFirst : List α) : Reader (List α) :=
  fun s => (part s).map fun p => p.map (· :: latestFirst)

/-! ### Values -/

/-- Reads the name of a member. -/
def readName : Reader String
  | '"' :: s => (readString s).map fun p => (p.map String.ofList).behind '"'
  | s => .error (.on .nameNotString s)

/-- Reads a value behind the colon in front of it. -/
def readMemberValue {α : Type} (value : Reader α) : Reader α := fun s =>
  match h : skipSpace s with
  | [] => .error (.before .endInObject [])
  | ':' :: t =>
    (value t).map (·.within (by
      have := length_skipSpace_le s
      simp [h] at this
      omega))
  | t => .error (.on .expectedColon t)

/-- Reads a member of an object, whose values `value` reads. -/
def readMember (value : Reader Value) : Reader (String × Value) := fun s =>
  match readName s with
  | .error e => .error e
  | .ok name =>
    (readMemberValue value name.rest).map fun p =>
      (p.map (name.value, ·)).within name.rest_le

/-- What follows a word that is expected. -/
def passWord : (word s : List Char) → Except Failure { rest : List Char // rest.length ≤ s.length }
  | [], s => .ok ⟨s, Nat.le_refl _⟩
  | _ :: _, [] => .error (.before .endInValue [])
  | w :: word, c :: s =>
    if w = c then (passWord word s).map fun r => ⟨r.1, Nat.le_succ_of_le r.2⟩
    else .error (.on .expectedWord (c :: s))

/-- Reads a value that is written as a word, behind the first letter of it. -/
def readWord (word : String) (value : Value) (c : Char) (s : List Char) :
    Except Failure (Parsed Value (c :: s)) :=
  (passWord word.toList s).map fun r => { value, rest := r.1, shorter := Nat.lt_succ_of_le r.2 }

/-- Reads a number. -/
def readNumber (negative : Bool) : Reader Value := fun s =>
  match h : readNumeral negative s with
  | .error e => .error e
  | .ok (n, rest) => .ok { value := .number n, rest, shorter := length_of_readNumeral h }

/-- Reads a value. Arrays and objects in it may be nested `depth` deep. -/
def readValue (depth : Nat) (s : List Char) : Except Failure (Parsed Value s) :=
  let go : Except Failure (Parsed Value (skipSpace s)) :=
    match skipSpace s with
    | [] => .error (.before .endInValue [])
    | c :: t =>
      match c with
      | 'n' => readWord "ull" .null 'n' t
      | 't' => readWord "rue" (.bool true) 't' t
      | 'f' => readWord "alse" (.bool false) 'f' t
      | '-' => (readNumber true t).map (·.behind '-')
      | '"' => (readString t).map fun p =>
          (p.map fun s => .string (String.ofList s)).behind '"'
      | '[' =>
        match depth with
        | 0 => .error (.on .tooDeep ('[' :: t))
        | depth + 1 =>
          (readArray (collecting (readValue depth)) [] t).map fun p =>
            (p.map fun vs => .array vs.reverse).behind '['
      | '\x7b' =>
        match depth with
        | 0 => .error (.on .tooDeep ('\x7b' :: t))
        | depth + 1 =>
          (readObject (collecting (readMember (readValue depth))) [] t).map fun p =>
            (p.map fun ms => .object ms.reverse).behind '\x7b'
      | c =>
        if isDigit c then readNumber false (c :: t)
        else .error (.on .expectedValue (c :: t))
  go.map (·.within (length_skipSpace_le s))

/-- How deep arrays and objects may be nested. -/
def maxDepth : Nat := 127

/-- The failure of a text that goes on behind a value, if it does. -/
def checkEnd (rest : List Char) : Except Failure Unit :=
  match skipSpace rest with
  | [] => .ok ()
  | s => .error (.on .trailingText s)

/-- Reads a whole text as one value, with the members of objects as they are written. -/
def read (s : List Char) : Except Failure Value := do
  let p ← readValue maxDepth s
  checkEnd p.rest
  return p.value

/-- The canonical value of a text. -/
def parse (text : String) : Except Error Value :=
  match read text.toList with
  | .ok v => .ok v.canonical
  | .error e => .error (e.inText text.toList)

end BoundMarkup.Json
