/-!
# Parsed texts

What a reader returns: a value together with the rest of the text, and the fact that the rest is
shorter. A reader that is called again on the rest comes to an end for that reason.
-/

namespace BoundMarkup.Text

/-- Something read at the front of the text `s`. -/
structure Parsed (α : Type) (s : List Char) where
  /-- What is read. -/
  value : α
  /-- The text behind it. -/
  rest : List Char
  /-- Something is read. -/
  shorter : rest.length < s.length

namespace Parsed

/-- What is read at the front of a part is read in the whole. -/
def within {α : Type} {s t : List Char} (p : Parsed α s) (h : s.length ≤ t.length) : Parsed α t :=
  { p with shorter := Nat.lt_of_lt_of_le p.shorter h }

/-- What stands behind is not longer than the text. -/
theorem rest_le {α : Type} {s : List Char} (p : Parsed α s) : p.rest.length ≤ s.length :=
  Nat.le_of_lt p.shorter

theorem rest_le_cons {α : Type} {s : List Char} (p : Parsed α s) (c : Char) :
    p.rest.length ≤ (c :: s).length :=
  Nat.le_succ_of_le p.rest_le

/-- What the first character of a text is read as. -/
def first {α : Type} (value : α) (c : Char) (s : List Char) : Parsed α (c :: s) :=
  { value, rest := s, shorter := Nat.lt_succ_self s.length }

/-- What is read behind a character is read in the text that begins with it. -/
def behind {α : Type} {s : List Char} (p : Parsed α s) (c : Char) : Parsed α (c :: s) :=
  p.within (Nat.le_succ s.length)

/-- What is read, under a function. -/
def map {α β : Type} {s : List Char} (f : α → β) (p : Parsed α s) : Parsed β s :=
  { value := f p.value, rest := p.rest, shorter := p.shorter }

end Parsed

end BoundMarkup.Text
