/-!
# Character classes and caseless text

The classes that the readers of this library ask for, and case folding restricted to ASCII.

`isBlank` is the Unicode property White_Space (25 characters), `isControl` the general category
Cc. Names of elements and attributes are compared after folding `A` to `Z` only, so no other
letter is ever identified with another.
-/

namespace BoundMarkup.Text

/-- Code points with the property White_Space, as closed ranges in ascending order. -/
def blankRanges : List (Nat × Nat) :=
  [(0x09, 0x0D), (0x20, 0x20), (0x85, 0x85), (0xA0, 0xA0), (0x1680, 0x1680), (0x2000, 0x200A),
   (0x2028, 0x2029), (0x202F, 0x202F), (0x205F, 0x205F), (0x3000, 0x3000)]

/-- Whether a code point lies in one of the closed ranges. -/
def inRanges (ranges : List (Nat × Nat)) (n : Nat) : Bool :=
  ranges.any fun r => r.1 ≤ n && n ≤ r.2

/-- White space in the sense of Unicode. -/
def isBlank (c : Char) : Bool := inRanges blankRanges c.toNat

/-- Control characters: U+0000 to U+001F and U+007F to U+009F. -/
def isControl (c : Char) : Bool := c.toNat < 0x20 || (0x7F ≤ c.toNat && c.toNat < 0xA0)

/-- Lowercase letters of ASCII. -/
def isLowerAscii (c : Char) : Bool := 'a' ≤ c && c ≤ 'z'

/-- Letters of ASCII. -/
def isLetter (c : Char) : Bool := isLowerAscii c || ('A' ≤ c && c ≤ 'Z')

/-- Digits of ASCII. -/
def isDigit (c : Char) : Bool := '0' ≤ c && c ≤ '9'

/-- The value of a digit in bases up to sixteen, in either case. -/
def digitValue? (c : Char) : Option Nat :=
  if '0' ≤ c ∧ c ≤ '9' then some (c.toNat - '0'.toNat)
  else if 'a' ≤ c ∧ c ≤ 'f' then some (c.toNat - 'a'.toNat + 10)
  else if 'A' ≤ c ∧ c ≤ 'F' then some (c.toNat - 'A'.toNat + 10)
  else none

/-- Folds `A` to `Z` to lowercase and leaves every other character alone. -/
def lower (s : List Char) : List Char := s.map Char.toLower

/-- The text with `A` to `Z` folded to lowercase. -/
def lowercase (s : String) : String := String.ofList (lower s.toList)

/-- Equality of names up to the case of ASCII letters. -/
def caseless (a b : String) : Bool := lower a.toList == lower b.toList

/-- The characters between the first and the last one that is not blank. -/
def trim (s : List Char) : List Char :=
  ((s.dropWhile isBlank).reverse.dropWhile isBlank).reverse

/-- The text without blanks at its two ends. -/
def trimmed (s : String) : String := String.ofList (trim s.toList)

/-- The number of bytes of the UTF-8 form. -/
def byteSize (s : List Char) : Nat := s.foldr (fun c n => c.utf8Size + n) 0

@[simp]
theorem toList_lowercase (s : String) : (lowercase s).toList = lower s.toList := by
  simp [lowercase]

@[simp]
theorem toList_trimmed (s : String) : (trimmed s).toList = trim s.toList := by
  simp [trimmed]

@[simp]
theorem byteSize_nil : byteSize [] = 0 := rfl

@[simp]
theorem byteSize_cons (c : Char) (s : List Char) : byteSize (c :: s) = c.utf8Size + byteSize s :=
  rfl

@[simp]
theorem byteSize_append (s t : List Char) : byteSize (s ++ t) = byteSize s + byteSize t := by
  induction s with
  | nil => simp
  | cons c s ih => simp [ih, Nat.add_assoc]

theorem caseless_iff {a b : String} : caseless a b = true ↔ lowercase a = lowercase b := by
  simp [caseless, lowercase, ← String.toList_inj]

end BoundMarkup.Text
