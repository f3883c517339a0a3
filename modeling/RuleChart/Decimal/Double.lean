namespace RuleChart

/-! The exact value behind a double.

Every number text in this library is decided on this view, in exact integer
arithmetic, and never on the result of another floating-point operation.
-/

/-- `finite negative m e` stands for `m * 2 ^ e`, negated when `negative`. -/
inductive Double where
  | finite (negative : Bool) (mantissa : Nat) (exponent : Int)
  | infinite (negative : Bool)
  | undefined
deriving DecidableEq, Repr

namespace Double

/-- Reads sign, exponent and fraction off the 64 bits.  The fraction of a normal
number has an implicit leading one; subnormal numbers and the zeros have none. -/
def ofFloat (x : Float) : Double :=
  let bits := x.toBits.toNat
  let negative := decide (Nat.pow 2 63 ≤ bits)
  let place : Nat := bits / Nat.pow 2 52 % 2048
  let fraction : Nat := bits % Nat.pow 2 52
  if place = 2047 then
    if fraction = 0 then .infinite negative else .undefined
  else if place = 0 then .finite negative fraction (-1074)
  else .finite negative (Nat.pow 2 52 + fraction) (Int.ofNat place - 1075)

/-- The numerator and denominator of `m * 2 ^ e`. -/
def ratio (mantissa : Nat) (exponent : Int) : Nat × Nat :=
  (mantissa * Nat.pow 2 exponent.toNat, Nat.pow 2 (-exponent).toNat)

/-- The integer that a double equals, if it equals one. -/
def integer? : Double → Option Int
  | .finite negative mantissa exponent =>
      let (numerator, denominator) := ratio mantissa exponent
      if numerator % denominator = 0 then
        let magnitude : Int := (numerator / denominator : Nat)
        some (if negative then -magnitude else magnitude)
      else none
  | .infinite _ => none
  | .undefined => none

end Double

end RuleChart
