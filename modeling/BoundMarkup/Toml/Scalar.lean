import BoundMarkup.Json.Numeral
import BoundMarkup.Text.Parsed
import BoundMarkup.Toml.Value

/-!
# TOML keys and scalars

Readers for what has no inner structure: white space, strings, keys, numbers and dates. A reader
that finds something else returns nothing.
-/

namespace BoundMarkup.Toml

open Text

/-- A reader for things of a type. -/
abbrev Reader (α : Type) := (s : List Char) → Option (Parsed α s)

/-- White space inside a line. -/
def isSpace (c : Char) : Bool := c == ' ' || c == '\t'

/-- The text without white space in front. -/
def skipSpace (s : List Char) : List Char := s.dropWhile isSpace

/-- A character that may stand in a comment or a string: a tab, or no control character. Controls
beyond ASCII are allowed. -/
def isTextChar (c : Char) : Bool := c == '\t' || (0x20 ≤ c.toNat && c.toNat != 0x7F)

/-- The text behind a comment, if there is one in front. -/
def skipComment : List Char → List Char
  | '#' :: s => s.dropWhile isTextChar
  | s => s

/-- The text behind a line feed in front, which may have a carriage return with it. -/
def newline? : List Char → Option (List Char)
  | '\n' :: s => some s
  | '\r' :: '\n' :: s => some s
  | _ => none

theorem length_skipSpace_le (s : List Char) : (skipSpace s).length ≤ s.length :=
  (List.dropWhile_sublist _).length_le

theorem length_of_newline? {s rest : List Char} (h : newline? s = some rest) :
    rest.length < s.length := by
  unfold newline? at h
  split at h
  · cases h
    exact Nat.lt_succ_self _
  · cases h
    simp only [List.length_cons]
    omega
  · cases h

/-! ### Strings -/

/-- The character with the code point that hexadecimal digits stand for. -/
def codePoint? (digits : List Char) : Option Char :=
  (digits.mapM digitValue?).bind fun ds =>
    let n := ds.foldl (fun n d => 16 * n + d) 0
    if n.isValidChar then some (Char.ofNat n) else none

/-- Reads an escape by code point with that many digits. -/
def readCodePoint (digits : Nat) : Reader Char := fun s =>
  if h : 0 < digits ∧ digits ≤ s.length then
    (codePoint? (s.take digits)).map fun c =>
      { value := c, rest := s.drop digits, shorter := by
          simp
          omega }
  else none

/-- The character that a letter behind a backslash stands for. -/
def escapeMeaning? : Char → Option Char
  | 'b' => some '\x08'
  | 't' => some '\t'
  | 'n' => some '\n'
  | 'f' => some '\x0c'
  | 'r' => some '\r'
  | '"' => some '"'
  | '\\' => some '\\'
  | _ => none

/-- Reads an escape behind its backslash. -/
def readEscape : Reader Char
  | [] => none
  | 'u' :: s => (readCodePoint 4 s).map (·.behind 'u')
  | 'U' :: s => (readCodePoint 8 s).map (·.behind 'U')
  | c :: s => (escapeMeaning? c).map fun value => .first value c s

/-- Reads a string in a line behind its double quote. -/
def readBasic (s : List Char) : Option (Parsed (List Char) s) :=
  match s with
  | [] => none
  | c :: s =>
    if c = '"' then some (.first [] c s)
    else if c = '\\' then
      match readEscape s with
      | none => none
      | some p =>
        (readBasic p.rest).map fun q =>
          (q.map (p.value :: ·)).within (p.rest_le_cons c)
    else if isTextChar c then
      (readBasic s).map fun q => (q.map (c :: ·)).behind c
    else none
termination_by s.length
decreasing_by
  · have := p.shorter
    simp
    omega
  · simp

/-- Reads a string in a line behind its single quote. Nothing in it is an escape. -/
def readLiteral : Reader (List Char)
  | [] => none
  | c :: s =>
    if c = '\'' then some (.first [] c s)
    else if isTextChar c then (readLiteral s).map fun q => (q.map (c :: ·)).behind c
    else none

/-- For a text that begins with three of the quotes that end a string of several lines: the
quotes that belong to the string, of which there are at most two, and the rest. -/
def closing? (quote : Char) (s : List Char) : Option (Parsed (List Char) s) :=
  let count := min (s.takeWhile (· = quote)).length 5
  if h : 3 ≤ count then
    some {
      value := List.replicate (count - 3) quote
      rest := s.drop count
      shorter := by
        have := (List.takeWhile_prefix (· = quote) (l := s)).length_le
        simp only [List.length_drop]
        omega }
  else none

/-- The text behind a line break in a string that a backslash takes out, with the white space and
the line breaks that follow. -/
def continued? (s : List Char) : Option (List Char) :=
  (newline? (skipSpace s)).map fun rest =>
    rest.dropWhile fun c => isSpace c || c == '\n' || c == '\r'

theorem length_of_continued? {s rest : List Char} (h : continued? s = some rest) :
    rest.length < s.length := by
  unfold continued? at h
  obtain ⟨t, ht, he⟩ := Option.map_eq_some_iff.mp h
  have h1 := length_skipSpace_le s
  have h2 := length_of_newline? ht
  have h3 := (List.dropWhile_sublist (l := t)
    (fun c => isSpace c || c == '\n' || c == '\r')).length_le
  rw [he] at h3
  omega

/-- Reads a string of several lines behind its three quotes. In one with double quotes, a
backslash begins an escape. -/
def readMultiline (quote : Char) (s : List Char) : Option (Parsed (List Char) s) :=
  match closing? quote s with
  | some p => some p
  | none =>
    match s with
    | [] => none
    | c :: t =>
      match _hn : newline? (c :: t) with
      | some rest =>
        (readMultiline quote rest).map fun q =>
          (q.map ('\n' :: ·)).within (Nat.le_of_lt (length_of_newline? _hn))
      | none =>
        if quote = '"' ∧ c = '\\' then
          match _hc : continued? t with
          | some rest =>
            (readMultiline quote rest).map fun q =>
              q.within (Nat.le_succ_of_le (Nat.le_of_lt (length_of_continued? _hc)))
          | none =>
            match readEscape t with
            | none => none
            | some p =>
              (readMultiline quote p.rest).map fun q =>
                (q.map (p.value :: ·)).within (p.rest_le_cons c)
        else if isTextChar c then
          (readMultiline quote t).map fun q => (q.map (c :: ·)).behind c
        else none
termination_by s.length
decreasing_by
  · exact length_of_newline? _hn
  · exact Nat.lt_succ_of_lt (length_of_continued? _hc)
  · have := p.shorter
    simp
    omega
  · simp

/-- Reads a string of several lines, past a line break right behind its quotes. -/
def readLines (quote : Char) : Reader (List Char) := fun s =>
  match h : newline? s with
  | some rest =>
    (readMultiline quote rest).map (·.within (Nat.le_of_lt (length_of_newline? h)))
  | none => readMultiline quote s

/-- Reads a string of any kind. -/
def readString : Reader (List Char)
  | '"' :: '"' :: '"' :: s => (readLines '"' s).map (·.within (by simp; omega))
  | '\'' :: '\'' :: '\'' :: s => (readLines '\'' s).map (·.within (by simp; omega))
  | '"' :: s => (readBasic s).map (·.behind '"')
  | '\'' :: s => (readLiteral s).map (·.behind '\'')
  | _ => none

/-! ### Keys -/

/-- A character of a key without quotes. -/
def isBareKeyChar (c : Char) : Bool := isLetter c || isDigit c || c == '_' || c == '-'

/-- Reads a key without points. -/
def readSimpleKey : Reader String
  | '"' :: s => (readBasic s).map fun p => (p.map String.ofList).behind '"'
  | '\'' :: s => (readLiteral s).map fun p => (p.map String.ofList).behind '\''
  | c :: s =>
    if isBareKeyChar c then
      some {
        value := String.ofList (c :: s.takeWhile isBareKeyChar)
        rest := s.dropWhile isBareKeyChar
        shorter := Nat.lt_succ_of_le (List.dropWhile_sublist _).length_le }
    else none
  | [] => none

/-- A key with the names in front of its points. -/
structure Key where
  /-- The names in front of the points. -/
  path : List String
  /-- The last name. -/
  name : String

/-- Reads a key, with white space around it and around its points. -/
def readKey (s : List Char) : Option (Parsed Key s) :=
  match readSimpleKey (skipSpace s) with
  | none => none
  | some p =>
    let p := p.within (length_skipSpace_le s)
    match _h : skipSpace p.rest with
    | '.' :: t =>
      (readKey t).map fun q =>
        (q.map fun k => { k with path := p.value :: k.path }).within (by
          have h1 := length_skipSpace_le p.rest
          have h2 := p.shorter
          simp [_h] at h1
          omega)
    | rest =>
      some {
        value := { path := [], name := p.value }
        rest
        shorter := by
          have h1 := length_skipSpace_le p.rest
          have h2 := p.shorter
          simp [_h] at h1
          omega }
termination_by s.length
decreasing_by
  have h1 := length_skipSpace_le p.rest
  have h2 := p.shorter
  simp [_h] at h1
  omega

/-! ### Numbers -/

/-- The digits in front of a text, of which each group is parted from the next by an underscore,
and the rest; `none` if a group is missing. -/
def digits? (isDigit : Char → Bool) : List Char → Option (List Char × List Char)
  | [] => none
  | [c] => if isDigit c then some ([c], []) else none
  | c :: d :: s =>
    if !isDigit c then none
    else if isDigit d then (digits? isDigit (d :: s)).map fun r => (c :: r.1, r.2)
    else if d = '_' then (digits? isDigit s).map fun r => (c :: r.1, r.2)
    else some ([c], d :: s)

/-- The sign in front of a text, and the rest. -/
def sign (s : List Char) : List Char × List Char :=
  match s with
  | '+' :: s => (['+'], s)
  | '-' :: s => (['-'], s)
  | s => ([], s)

/-- The digits of a whole number in front of a text, which begin with zero only if they are just
that, and the rest. -/
def wholeDigits? (s : List Char) : Option (List Char × List Char) :=
  match s with
  | '0' :: s => some (['0'], s)
  | s => digits? isDigit s

/-- The number that digits stand for. -/
def numberOf (base : Nat) (digits : List Char) : Nat :=
  digits.foldl (fun n c => base * n + (digitValue? c).getD 0) 0

/-- Whether a number fits into 64 bits with a sign. -/
def fits (n : Int) : Bool := -Int.pow 2 63 ≤ n && n < Int.pow 2 63

/-- A whole number that fits, with the rest. -/
def fitting? (n : Int) (rest : List Char) : Option (Value × List Char) :=
  if fits n then some (.integer n, rest) else none

/-- Whether a character is a digit of a base. -/
def isDigitOf (base : Nat) (c : Char) : Bool := (digitValue? c).any (· < base)

/-- A whole number in front of a text, and the rest. -/
def integer? (s : List Char) : Option (Value × List Char) :=
  let based (base : Nat) (s : List Char) : Option (Value × List Char) :=
    (digits? (isDigitOf base) s).bind fun r => fitting? (numberOf base r.1) r.2
  match s with
  | '0' :: 'x' :: s => based 16 s
  | '0' :: 'o' :: s => based 8 s
  | '0' :: 'b' :: s => based 2 s
  | s =>
    let (mark, s) := sign s
    (wholeDigits? s).bind fun r =>
      let n : Int := numberOf 10 r.1
      fitting? (if mark = ['-'] then -n else n) r.2

/-- A fraction in front of a text: its digits and the rest. -/
def fraction? : List Char → Option (List Char × List Char)
  | '.' :: s => digits? isDigit s
  | _ => none

/-- An exponent in front of a text: its value and the rest. -/
def exponent? : List Char → Option (Int × List Char)
  | 'e' :: s | 'E' :: s =>
    let (mark, s) := sign s
    (digits? isDigit s).map fun r =>
      let n : Int := numberOf 10 r.1
      (if mark = ['-'] then -n else n, r.2)
  | _ => none

/-- Whether the decimal `digits * 10 ^ power` is beyond the greatest floating-point number. -/
def isInfinite (digits : List Char) (power : Int) : Bool :=
  let significant := digits.dropWhile (· = '0')
  let places := significant.length + power
  if significant.isEmpty ∨ places < 309 then false
  else if 309 < places then true
  else
    let n := numberOf 10 significant
    Nat.pow 2 1024 - Nat.pow 2 970 ≤
      if 0 ≤ power then n * Nat.pow 10 power.toNat else n / Nat.pow 10 power.natAbs

/-- A floating-point number in front of a text, and the rest. A positive number that is too great
is none. -/
def float? (s : List Char) : Option (Value × List Char) :=
  let (mark, t) := sign s
  let result (digits : List Char) (power : Int) (rest : List Char) :
      Option (Value × List Char) :=
    if mark ≠ ['-'] ∧ isInfinite digits power then none
    else some (.float (String.ofList (s.take (s.length - rest.length))), rest)
  match t with
  | 'i' :: 'n' :: 'f' :: rest | 'n' :: 'a' :: 'n' :: rest =>
    some (.float (String.ofList (s.take (s.length - rest.length))), rest)
  | t =>
    (wholeDigits? t).bind fun (whole, t) =>
      match fraction? t with
      | some (fraction, t) =>
        match exponent? t with
        | some (e, rest) => result (whole ++ fraction) (e - fraction.length) rest
        | none =>
          match t with
          | 'e' :: _ | 'E' :: _ => none
          | rest => result (whole ++ fraction) (-fraction.length) rest
      | none =>
        -- Without a fraction and an exponent it is a whole number.
        match exponent? t with
        | some (e, rest) => result whole e rest
        | none => none

/-! ### Dates and times -/

/-- A number of that many digits in front of a text, and the rest. -/
def fixed? (count : Nat) (s : List Char) : Option (Nat × List Char) :=
  let digits := s.take count
  if digits.length = count ∧ digits.all isDigit then some (numberOf 10 digits, s.drop count)
  else none

/-- What follows a character in front of a text. -/
def past (c : Char) : List Char → Option (List Char)
  | d :: s => if c = d then some s else none
  | [] => none

/-- The number of days of a month. -/
def daysIn (year month : Nat) : Nat :=
  if month = 2 then
    if year % 4 = 0 ∧ (year % 100 ≠ 0 ∨ year % 400 = 0) then 29 else 28
  else if month = 4 ∨ month = 6 ∨ month = 9 ∨ month = 11 then 30
  else 31

/-- What follows a date in front of a text. -/
def date? (s : List Char) : Option (List Char) := do
  let (year, s) ← fixed? 4 s
  let s ← past '-' s
  let (month, s) ← fixed? 2 s
  let s ← past '-' s
  let (day, s) ← fixed? 2 s
  guard (1 ≤ month ∧ month ≤ 12 ∧ 1 ≤ day ∧ day ≤ daysIn year month)
  return s

/-- What follows a time in front of a text. -/
def time? (s : List Char) : Option (List Char) := do
  let (hour, s) ← fixed? 2 s
  let s ← past ':' s
  let (minute, s) ← fixed? 2 s
  let s ← past ':' s
  let (second, s) ← fixed? 2 s
  guard (hour ≤ 23 ∧ minute ≤ 59 ∧ second ≤ 60)
  match s with
  | '.' :: c :: rest => if isDigit c then return rest.dropWhile isDigit else return s
  | _ => return s

/-- What follows an offset from universal time in front of a text, if there is one. -/
def offset? (s : List Char) : Option (List Char) :=
  match s with
  | 'Z' :: rest | 'z' :: rest => some rest
  | '+' :: s | '-' :: s => do
    let (hours, s) ← fixed? 2 s
    let s ← past ':' s
    let (minutes, s) ← fixed? 2 s
    guard (hours ≤ 23 ∧ minutes ≤ 59)
    return s
  | _ => none

/-- What follows a date, a time or both in front of a text. -/
def moment? (s : List Char) : Option (List Char) :=
  match date? s with
  | none => time? s
  | some t =>
    match t with
    | 'T' :: u | 't' :: u | ' ' :: u =>
      match time? u with
      | none => some t
      | some v => some ((offset? v).getD v)
    | _ => some t

/-- A date, a time or both in front of a text, and the rest. -/
def dateTime? (s : List Char) : Option (Value × List Char) :=
  (moment? s).map fun rest =>
    (.dateTime (String.ofList (s.take (s.length - rest.length))), rest)

/-- A number or a date in front of a text, and the rest. -/
def number? (s : List Char) : Option (Value × List Char) :=
  dateTime? s <|> float? s <|> integer? s

/-- Reads what begins like a number. -/
def readNumber : Reader Value := fun s =>
  (number? s).bind fun (value, rest) =>
    if h : rest.length < s.length then some { value, rest, shorter := h } else none

end BoundMarkup.Toml
