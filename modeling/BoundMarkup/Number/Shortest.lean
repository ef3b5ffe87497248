import BoundMarkup.Number.Binary64

/-!
# Shortest decimals

The decimal with the fewest digits among those that are read back as a given binary number, and
of these the one nearest to it. A decimal is read back as `m * 2 ^ e` if it lies between the
middles to the two neighbours; the middles themselves are read back if `m` is even.
-/

namespace BoundMarkup.Number

/-- A decimal, `digits * 10 ^ power`. -/
structure Decimal where
  /-- The significant digits as one number. -/
  digits : Nat
  /-- The power of ten. -/
  power : Int
deriving DecidableEq, Repr

/-- Decimal digits of a natural number. -/
def natDigits (n : Nat) : List Char := Nat.toDigits 10 n

/-- Decimal digits of an integer. -/
def intDigits (n : Int) : List Char :=
  if n < 0 then '-' :: natDigits n.natAbs else natDigits n.natAbs

namespace Decimal

/-- `n * 10 ^ p`, in units that make it comparable with `binaryUnits _ p q`. -/
def decimalUnits (n : Nat) (p q : Int) : Nat := n * Nat.pow 10 p.toNat * Nat.pow 2 (-q).toNat

/-- `n * 2 ^ q`, in units that make it comparable with `decimalUnits _ p q`. -/
def binaryUnits (n : Nat) (p q : Int) : Nat := n * Nat.pow 2 q.toNat * Nat.pow 10 (-p).toNat

/-- The place of the first digit of `m * 2 ^ e`: the power of ten with that many places. -/
def leadingPower (m : Nat) (e : Int) : Int :=
  let num := m * Nat.pow 2 e.toNat
  let den := Nat.pow 2 (-e).toNat
  if den ≤ num then ((natDigits (num / den)).length : Int) - 1
  else
    let t := (natDigits den).length - (natDigits num).length
    if den ≤ num * Nat.pow 10 t then -(t : Int) else -(t : Int) - 1

/-- The distance from a number to its lesser neighbour is half as great when it is the least
number with its exponent; in quarters of its last place, the middle is then one below it, and two
otherwise. -/
def lowerQuarter (x : Binary64) : Nat :=
  if x.mantissa = Nat.pow 2 52 ∧ Binary64.minExponent < x.exponent then 1 else 2

/-- Whether `n * 10 ^ p` is read back as `x`. -/
def isReadBack (x : Binary64) (n : Nat) (p : Int) : Bool :=
  -- All is measured in quarters of the last place, so that the middles are whole numbers.
  let q := x.exponent - 2
  let d := decimalUnits n p q
  let lower := binaryUnits (4 * x.mantissa - lowerQuarter x) p q
  let upper := binaryUnits (4 * x.mantissa + 2) p q
  if x.mantissa % 2 = 0 then lower ≤ d && d ≤ upper else lower < d && d < upper

/-- The decimal nearest to `x` that is read back as `x` and a multiple of `10 ^ p`. -/
def onGrid? (x : Binary64) (p : Int) : Option Decimal :=
  let q := x.exponent - 2
  let unit := decimalUnits 1 p q
  let value := binaryUnits (4 * x.mantissa) p q
  let below := value / unit
  -- The nearer of the two grid points around `x` comes first.
  let nearer := Binary64.roundQuotient value unit
  let farther := if nearer = below then below + 1 else below
  if isReadBack x nearer p then some { digits := nearer, power := p }
  else if isReadBack x farther p then some { digits := farther, power := p }
  else none

/-- The first result on the grids of `count` and more digits, of which there are at most
`count + more`. -/
def firstGrid (x : Binary64) (leading : Int) (count : Nat) : Nat → Decimal
  | 0 => (onGrid? x (leading + 1 - count)).getD { digits := 0, power := 0 }
  | more + 1 =>
    match onGrid? x (leading + 1 - count) with
    | some d => d
    | none => firstGrid x leading (count + 1) more

/-- The shortest decimal that is read back as a number other than zero. Seventeen digits are
always enough. -/
def shortest (x : Binary64) : Decimal :=
  firstGrid x (leadingPower x.mantissa x.exponent) 1 16

end Decimal

namespace Binary64

/-- The text of the decimal `0.d₁d₂… * 10 ^ (leading + 1)`: positional from five places behind the
point to sixteen in front of it, with at least one digit behind the point, and otherwise with an
exponent that always has a sign. -/
def layout (digits : List Char) (leading : Int) : List Char :=
  if -5 ≤ leading ∧ leading ≤ 15 then
    if 0 ≤ leading then
      let places := leading.toNat + 1
      let whole := digits.take places ++ List.replicate (places - digits.length) '0'
      let fraction := digits.drop places
      whole ++ '.' :: (if fraction.isEmpty then ['0'] else fraction)
    else '0' :: '.' :: List.replicate ((-leading).toNat - 1) '0' ++ digits
  else
    let fraction := digits.drop 1
    digits.take 1 ++ (if fraction.isEmpty then [] else '.' :: fraction) ++
      'e' :: (if leading < 0 then ['-'] else ['+']) ++ natDigits leading.natAbs

/-- The text of a number, with the fewest digits from which it is read back. -/
def text (x : Binary64) : List Char :=
  let sign := if x.negative then ['-'] else []
  if x.isZero then sign ++ ['0', '.', '0']
  else
    let d := Decimal.shortest x
    let all := natDigits d.digits
    let digits := (all.reverse.dropWhile (· = '0')).reverse
    sign ++ layout digits (d.power + all.length - 1)

end Binary64

end BoundMarkup.Number
