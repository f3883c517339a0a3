import RuleChart.Decimal.Notation

namespace RuleChart

/-- The integer nearest to `numerator / denominator`; a half goes to the even side. -/
def roundQuotient (numerator denominator : Nat) : Nat :=
  let quotient := numerator / denominator
  let excess := 2 * (numerator % denominator)
  if excess < denominator ∨ (excess = denominator ∧ quotient % 2 = 0) then quotient
  else quotient + 1

/-- The text without the marks of one kind that end it. -/
def withoutTrailing (mark : Char) (text : List Char) : List Char :=
  (text.reverse.dropWhile (· == mark)).reverse

namespace Double

/-- How many hundredths the exact value of `m * 2 ^ e` rounds to. -/
def hundredths (mantissa : Nat) (exponent : Int) : Nat :=
  let (numerator, denominator) := ratio mantissa exponent
  roundQuotient (100 * numerator) denominator

/-- A count of hundredths with both places behind the point. -/
def twoPlaces (count : Nat) : List Char :=
  Nat.toDigits 10 (count / 100) ++
    ['.', Nat.digitChar (count / 10 % 10), Nat.digitChar (count % 10)]

def fixedText : Double → String
  | .finite negative mantissa exponent =>
      signText negative ++ String.ofList (twoPlaces (hundredths mantissa exponent))
  | .infinite negative => signText negative ++ "inf"
  | .undefined => "nan"

/-- Two places behind the point, from which the zeros at the end are left out, and then the point if
nothing stands behind it any more.  A zero is only left out behind a point: every finite text has
one. -/
def coordinateText (double : Double) : String :=
  String.ofList (withoutTrailing '.' (withoutTrailing '0' double.fixedText.toList))

end Double

end RuleChart
