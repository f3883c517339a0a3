import RuleChart.Decimal.Double

namespace RuleChart

/-! The fewest decimal digits that identify a double.

A decimal identifies a double when it lies in the interval of reals that round
to it.  The grids of one, two, … significant digits are tried in turn; on each
only the two neighbours of the exact value can be nearest, and of two that both
identify the value the nearer one is taken.
-/

/-- The number `digits * 10 ^ exponent`. -/
structure Decimal where
  digits : Nat
  exponent : Int
deriving DecidableEq, Repr

namespace Decimal

/-- The number of decimal digits of `n`, at least one. -/
def digitCount (n : Nat) : Nat := (Nat.toDigits 10 n).length

/-- The place of the leading digit of `m * 2 ^ e`: the greatest `p` with
`10 ^ p ≤ m * 2 ^ e`. -/
def leadingPlace (mantissa : Nat) (exponent : Int) : Int :=
  let (numerator, denominator) := Double.ratio mantissa exponent
  let guess : Int := digitCount numerator - digitCount denominator
  if denominator * Nat.pow 10 guess.toNat ≤ numerator * Nat.pow 10 (-guess).toNat then guess
  else guess - 1

/-- Whether `digits * 10 ^ place` rounds to `m * 2 ^ e`.  The interval reaches half a
unit to either side, a quarter below a power of two, and holds its ends when the
mantissa is even.  Both sides are compared in quarter units. -/
def identifies (mantissa : Nat) (exponent : Int) (digits : Nat) (place : Int) : Bool :=
  let candidate := digits * Nat.pow 10 place.toNat * Nat.pow 2 (2 - exponent).toNat
  let quarter := Nat.pow 10 (-place).toNat * Nat.pow 2 (exponent - 2).toNat
  let below := if mantissa = Nat.pow 2 52 ∧ -1074 < exponent then 1 else 2
  let low := (4 * mantissa - below) * quarter
  let high := (4 * mantissa + 2) * quarter
  if mantissa % 2 = 0 then decide (low ≤ candidate) && decide (candidate ≤ high)
  else decide (low < candidate) && decide (candidate < high)

/-- The multiple of `10 ^ place` that identifies `m * 2 ^ e` and is nearest to it; an
exact tie goes to the even multiple. -/
def onGrid? (mantissa : Nat) (exponent place : Int) : Option Nat :=
  let (numerator, denominator) := Double.ratio mantissa exponent
  let scaled := numerator * Nat.pow 10 (-place).toNat
  let unit := denominator * Nat.pow 10 place.toNat
  let lower := scaled / unit
  let excess := 2 * (scaled % unit)
  match identifies mantissa exponent lower place,
      identifies mantissa exponent (lower + 1) place with
  | true, true =>
      some (if excess < unit ∨ (excess = unit ∧ lower % 2 = 0) then lower else lower + 1)
  | true, false => some lower
  | false, true => some (lower + 1)
  | false, false => none

/-- Tries ever finer grids, starting at `place`. -/
def search (mantissa : Nat) (exponent : Int) : Nat → Int → Decimal
  | 0, place => ⟨0, place⟩
  | grids + 1, place =>
      match onGrid? mantissa exponent place with
      | some digits => ⟨digits, place⟩
      | none => search mantissa exponent grids (place - 1)

/-- Seventeen significant digits identify every double. -/
def fewest (mantissa : Nat) (exponent : Int) : Decimal :=
  search mantissa exponent 17 (leadingPlace mantissa exponent)

end Decimal

end RuleChart
