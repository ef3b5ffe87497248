/-!
# Binary floating point

Numbers with 53 significant bits and an exponent of limited range, as exact values `m * 2 ^ e`.
Every operation takes the exact result and rounds it once, to the nearest number and between two
equally near ones to the one with an even mantissa.
-/

namespace BoundMarkup.Number

/-- A finite binary number, `± mantissa * 2 ^ exponent`. The numbers that `nearest?` makes have a
mantissa below `2 ^ 53`, and one below `2 ^ 52` only with the least exponent. -/
structure Binary64 where
  /-- Whether there is a minus sign; zero may have one. -/
  negative : Bool
  /-- The significant bits. -/
  mantissa : Nat
  /-- The power of two. -/
  exponent : Int
deriving DecidableEq, Repr

namespace Binary64

/-- The least exponent. -/
def minExponent : Int := -1074

/-- The greatest exponent. -/
def maxExponent : Int := 971

/-- The quotient, rounded to the nearest whole number and from halfway to the even one. -/
def roundQuotient (num den : Nat) : Nat :=
  let q := num / den
  let r := num % den
  if den < 2 * r ∨ (den = 2 * r ∧ q % 2 = 1) then q + 1 else q

/-- The quotient `num / den * 2 ^ scale / 2 ^ e`, as a numerator and a denominator. -/
def shifted (num den : Nat) (scale e : Int) : Nat × Nat :=
  (num * Nat.pow 2 (scale - e).toNat, den * Nat.pow 2 (e - scale).toNat)

/-- The exponent with which `num / den * 2 ^ scale` has 53 significant bits, or the least
exponent if that is greater. -/
def exponentFor (num den : Nat) (scale : Int) : Int :=
  let e := max (scale + num.log2 - den.log2 - 53) minExponent
  let (n, d) := shifted num den scale e
  -- The logarithms leave room for one bit more than the quotient may have.
  if n / d < Nat.pow 2 53 then e else e + 1

/-- The number nearest to `num / den * 2 ^ scale`, or `none` if that is too great. -/
def nearest? (num den : Nat) (scale : Int) : Option Binary64 :=
  if num = 0 then some { negative := false, mantissa := 0, exponent := minExponent }
  else
    let e := exponentFor num den scale
    let (n, d) := shifted num den scale e
    let m := roundQuotient n d
    -- Rounding up can carry into a bit too many, and then the last one is zero.
    let x : Binary64 :=
      if m = Nat.pow 2 53 then { negative := false, mantissa := Nat.pow 2 52, exponent := e + 1 }
      else { negative := false, mantissa := m, exponent := e }
    if x.exponent ≤ maxExponent then some x else none

/-- The number nearest to a natural number. -/
def ofNat? (n : Nat) : Option Binary64 := nearest? n 1 0

/-- The product of two magnitudes. -/
def mul? (x y : Binary64) : Option Binary64 :=
  nearest? (x.mantissa * y.mantissa) 1 (x.exponent + y.exponent)

/-- The quotient of two magnitudes. -/
def div? (x y : Binary64) : Option Binary64 :=
  nearest? x.mantissa y.mantissa (x.exponent - y.exponent)

/-- The number with the given sign. -/
def withSign (negative : Bool) (x : Binary64) : Binary64 := { x with negative }

/-- Zero of either sign. -/
def zero (negative : Bool) : Binary64 := { negative, mantissa := 0, exponent := minExponent }

/-- Whether a number is zero of either sign. -/
def isZero (x : Binary64) : Bool := x.mantissa == 0

end Binary64

end BoundMarkup.Number
