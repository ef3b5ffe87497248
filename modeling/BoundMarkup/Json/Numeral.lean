import BoundMarkup.Json.Failure
import BoundMarkup.Json.Value

/-!
# Reading JSON numbers

A whole number that fits into 64 bits is read exactly. Any other number is read in two steps: its
digits make a whole number of at most 64 bits, where further digits are dropped, and that is
multiplied or divided by a power of ten. Each step rounds, so the result can differ from the
number nearest to the text.
-/

namespace BoundMarkup.Json

open Number Text

/-- The greatest whole number of 64 bits. -/
def maxWhole : Nat := Nat.pow 2 64 - 1

/-- The greatest exponent, in absolute value, that is read exactly. -/
def maxExponent : Nat := Nat.pow 2 31 - 1

/-- The greatest power of ten that is a binary number. -/
def maxPower : Nat := 308

/-- The value of a digit. -/
def digitValue (c : Char) : Nat := c.toNat - '0'.toNat

/-- The digits in front of a text and what follows them. -/
def spanDigits (s : List Char) : List Char × List Char := (s.takeWhile isDigit, s.dropWhile isDigit)

/-- Reads digits on top of `value`, as long as it stays within `limit`; also returns the digits
that are left. -/
def accumulate (limit value : Nat) : List Char → Nat × List Char
  | [] => (value, [])
  | c :: s =>
    let next := 10 * value + digitValue c
    if limit < next then (value, c :: s) else accumulate limit next s

/-- The product of a number and `10 ^ n`, or `none` if that is too great. -/
def timesTenTo? (x : Binary64) (n : Nat) : Option Binary64 :=
  if n ≤ maxPower then (Binary64.ofNat? (Nat.pow 10 n)).bind x.mul?
  else if x.isZero then some x
  else none

/-- The quotient of a number by `10 ^ n`, taken in steps that are binary numbers. -/
def overTenTo? (x : Binary64) (n : Nat) : Option Binary64 :=
  if x.isZero then some x
  else if n ≤ maxPower then (Binary64.ofNat? (Nat.pow 10 n)).bind x.div?
  else
    ((Binary64.ofNat? (Nat.pow 10 maxPower)).bind x.div?).bind fun y => overTenTo? y (n - maxPower)
termination_by n
decreasing_by
  simp [maxPower] at *
  omega

/-- The number `significand * 10 ^ power`, or `none` if that is too great. -/
def scaled? (significand : Nat) (power : Int) : Option Binary64 :=
  (Binary64.ofNat? significand).bind fun x =>
    if power < 0 then overTenTo? x power.natAbs else timesTenTo? x power.natAbs

/-- The floating-point number of that significand, power and sign, in front of `rest`. -/
def float (negative : Bool) (significand : Nat) (power : Int) (rest : List Char) :
    Except Failure (Numeral × List Char) :=
  match scaled? significand power with
  | some x => .ok (.float (x.withSign negative), rest)
  | none => .error (.before .numberOutOfRange rest)

/-- Reads the digits of an exponent; `down` says that it is negative. An exponent that is too
great to be read gives zero where it can only give zero. -/
def readExponentDigits (negative : Bool) (significand : Nat) (power : Int) (down : Bool)
    (s : List Char) : Except Failure (Numeral × List Char) :=
  match s with
  | [] => .error (.before .endInValue [])
  | c :: _ =>
    if isDigit c then
      let (digits, rest) := spanDigits s
      let (exponent, left) := accumulate maxExponent 0 digits
      if left.isEmpty then
        float negative significand (if down then power - exponent else power + exponent) rest
      -- With so great an exponent the number is zero or out of range.
      else if significand = 0 ∨ down then .ok (.float (.zero negative), rest)
      else .error (.before .numberOutOfRange (left.drop 1 ++ rest))
    else .error (.on .invalidNumber s)

/-- Reads the exponent of a number behind the letter. -/
def readExponent (negative : Bool) (significand : Nat) (power : Int) (s : List Char) :
    Except Failure (Numeral × List Char) :=
  match s with
  | '+' :: s => readExponentDigits negative significand power false s
  | '-' :: s => readExponentDigits negative significand power true s
  | s => readExponentDigits negative significand power false s

/-- Reads the end of a number behind its digits: an exponent or nothing. -/
def readPower (negative : Bool) (significand : Nat) (power : Int) (s : List Char) :
    Except Failure (Numeral × List Char) :=
  match s with
  | 'e' :: s | 'E' :: s => readExponent negative significand power s
  | s => float negative significand power s

/-- Reads the fraction of a number behind the point. -/
def readFraction (negative : Bool) (significand : Nat) (power : Int) (s : List Char) :
    Except Failure (Numeral × List Char) :=
  let (digits, rest) := spanDigits s
  if digits.isEmpty then
    .error (if rest.isEmpty then .before .endInValue rest else .on .invalidNumber rest)
  else
    let (significand, left) := accumulate maxWhole significand digits
    readPower negative significand (power - (digits.length - left.length)) rest

/-- The number with no fraction and no exponent: a whole number if it fits into 64 bits, with its
sign. -/
def wholeNumber (negative : Bool) (n : Nat) : Numeral :=
  if negative then
    -- Minus zero and what does not fit with its sign are floating-point numbers.
    if 0 < n ∧ n ≤ Nat.pow 2 63 then .integer (-n)
    else .float (((Binary64.ofNat? n).getD (.zero true)).withSign true)
  else .integer n

/-- Reads a number behind its sign. -/
def readNumeral (negative : Bool) (s : List Char) : Except Failure (Numeral × List Char) :=
  match s with
  | [] => .error (.before .endInValue [])
  | c :: t =>
    if isDigit c then
      -- No digit follows a zero in front.
      if c = '0' ∧ (t.head?.any isDigit) then .error (.on .invalidNumber t)
      else
        let (digits, rest) := spanDigits s
        let (significand, left) := accumulate maxWhole 0 digits
        -- A digit that did not fit makes the number ten times as great.
        match rest with
        | '.' :: rest => readFraction negative significand left.length rest
        | 'e' :: rest | 'E' :: rest => readExponent negative significand left.length rest
        | rest =>
          if left.isEmpty then .ok (wholeNumber negative significand, rest)
          else float negative significand left.length rest
    else .error (.on .invalidNumber s)

/-! ### Reading makes progress -/

theorem length_spanDigits_le (s : List Char) : (spanDigits s).2.length ≤ s.length :=
  (List.dropWhile_sublist _).length_le

theorem length_of_float {negative : Bool} {significand : Nat} {power : Int} {s rest : List Char}
    {x : Numeral} (h : float negative significand power s = .ok (x, rest)) :
    rest.length ≤ s.length := by
  rw [float] at h
  split at h
  · cases h
    exact Nat.le_refl _
  · cases h

theorem length_of_readExponentDigits {negative down : Bool} {significand : Nat} {power : Int}
    {s rest : List Char} {x : Numeral}
    (h : readExponentDigits negative significand power down s = .ok (x, rest)) :
    rest.length ≤ s.length := by
  unfold readExponentDigits at h
  split at h
  · cases h
  · split at h
    · simp only at h
      split at h
      · exact Nat.le_trans (length_of_float h) (length_spanDigits_le _)
      · split at h
        · cases h
          exact length_spanDigits_le _
        · cases h
    · cases h

theorem length_of_readExponent {negative : Bool} {significand : Nat} {power : Int}
    {s rest : List Char} {x : Numeral}
    (h : readExponent negative significand power s = .ok (x, rest)) :
    rest.length ≤ s.length := by
  unfold readExponent at h
  split at h
  · exact Nat.le_succ_of_le (length_of_readExponentDigits h)
  · exact Nat.le_succ_of_le (length_of_readExponentDigits h)
  · exact length_of_readExponentDigits h

theorem length_of_readPower {negative : Bool} {significand : Nat} {power : Int}
    {s rest : List Char} {x : Numeral}
    (h : readPower negative significand power s = .ok (x, rest)) : rest.length ≤ s.length := by
  unfold readPower at h
  split at h
  · exact Nat.le_succ_of_le (length_of_readExponent h)
  · exact Nat.le_succ_of_le (length_of_readExponent h)
  · exact length_of_float h

theorem length_of_readFraction {negative : Bool} {significand : Nat} {power : Int}
    {s rest : List Char} {x : Numeral}
    (h : readFraction negative significand power s = .ok (x, rest)) :
    rest.length ≤ s.length := by
  unfold readFraction at h
  simp only at h
  split at h
  · cases h
  · exact Nat.le_trans (length_of_readPower h) (length_spanDigits_le s)

theorem length_spanDigits_lt {c : Char} {s : List Char} (h : isDigit c = true) :
    (spanDigits (c :: s)).2.length < (c :: s).length := by
  have := length_spanDigits_le s
  simp only [spanDigits, List.dropWhile_cons, h, if_true, List.length_cons] at this ⊢
  omega

/-- A number has at least one digit. -/
theorem length_of_readNumeral {negative : Bool} {s rest : List Char} {x : Numeral}
    (h : readNumeral negative s = .ok (x, rest)) : rest.length < s.length := by
  unfold readNumeral at h
  split at h
  · cases h
  · next c t =>
    split at h
    · next hc =>
      have hs := length_spanDigits_lt (s := t) hc
      split at h
      · cases h
      · simp only at h
        split at h
        · next u hu =>
          have := length_of_readFraction h
          simp only [hu, List.length_cons] at hs ⊢
          omega
        · next u hu =>
          have := length_of_readExponent h
          simp only [hu, List.length_cons] at hs ⊢
          omega
        · next u hu =>
          have := length_of_readExponent h
          simp only [hu, List.length_cons] at hs ⊢
          omega
        · split at h
          · cases h
            exact hs
          · exact Nat.lt_of_le_of_lt (length_of_float h) hs
    · cases h

end BoundMarkup.Json
