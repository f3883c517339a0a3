import RuleChart.Decimal.Hundredths

namespace RuleChart

/-- Exact integers and doubles are kept apart as they were written. -/
inductive Number where
  | int (value : Int)
  | float (value : Float)
deriving DecidableEq

namespace Number

/-- Integers in full; doubles with the fewest digits that identify them. -/
def text : Number → String
  | .int value => toString value
  | .float value => (Double.ofFloat value).text

/-- The spelling inside JSON text, where the three values without digits have names. -/
def jsonText : Number → String
  | .int value => toString value
  | .float value =>
      match Double.ofFloat value with
      | .undefined => "NaN"
      | .infinite false => "Infinity"
      | .infinite true => "-Infinity"
      | .finite negative mantissa exponent => (Double.finite negative mantissa exponent).text

/-- From here on an integral double keeps its exponent. -/
def integralBound : Nat := Nat.pow 10 21

/-- The spelling inside a label: an integral double below the bound is written as an
integer. -/
def labelText : Number → String
  | .int value => toString value
  | .float value =>
      match (Double.ofFloat value).integer? with
      | some whole =>
          if whole.natAbs < integralBound then toString whole else (Double.ofFloat value).text
      | none => (Double.ofFloat value).text

/-- One representative for all numbers of the same exact value: the integer, if there
is one.  A double that is no integer is the only number of its value. -/
def canonical : Number → Number
  | .int value => .int value
  | .float value =>
      match (Double.ofFloat value).integer? with
      | some whole => .int whole
      | none => .float value

/-- The double nearest to `digits * 10 ^ exponent`.  Beyond four hundred places to either
side of the point every double is exhausted, so no greater power is formed. -/
def nearestFloat (negative : Bool) (digits : Nat) (exponent : Int) : Float :=
  let top := exponent + Decimal.digitCount digits
  let magnitude : Float :=
    if digits = 0 ∨ top < -400 then 0
    else if 400 < top then 1 / 0
    else Float.ofScientific digits (exponent < 0) exponent.natAbs
  if negative then -magnitude else magnitude

end Number

end RuleChart
