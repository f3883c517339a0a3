import RuleChart.Decimal.Fewest

namespace RuleChart

namespace Decimal

def zeros (count : Nat) : List Char := List.replicate count '0'

/-- The significant digits, without the zeros that end them. -/
def significant (digits : Nat) : List Char :=
  let written := Nat.toDigits 10 digits
  match (written.reverse.dropWhile (· == '0')).reverse with
  | [] => ['0']
  | kept => kept

/-- Places `digits` so that the first of them stands at `10 ^ point`. -/
def positional (digits : List Char) (point : Int) : List Char :=
  if point < 0 then
    '0' :: '.' :: zeros (-point - 1).toNat ++ digits
  else
    let whole := point.toNat + 1
    if digits.length ≤ whole then
      digits ++ zeros (whole - digits.length) ++ ['.', '0']
    else digits.take whole ++ '.' :: digits.drop whole

def exponential (digits : List Char) (point : Int) : List Char :=
  let sign := if point < 0 then '-' else '+'
  let power := Nat.toDigits 10 point.natAbs
  let padding := zeros (2 - power.length)
  let fraction := match digits.drop 1 with
    | [] => []
    | more => '.' :: more
  digits.take 1 ++ fraction ++ 'e' :: sign :: padding ++ power

/-- Positional from 0.0001 up to, but not including, `10 ^ 16`; elsewhere with an exponent. -/
def text (decimal : Decimal) : String :=
  let point := decimal.exponent + digitCount decimal.digits - 1
  let digits := significant decimal.digits
  String.ofList
    (if -4 ≤ point ∧ point < 16 then positional digits point else exponential digits point)

end Decimal

namespace Double

def signText (negative : Bool) : String := if negative then "-" else ""

/-- The fewest digits that identify the value, with `.0` behind an integral one. -/
def text : Double → String
  | .finite negative mantissa exponent =>
      signText negative ++
        (if mantissa = 0 then "0.0" else (Decimal.fewest mantissa exponent).text)
  | .infinite negative => signText negative ++ "inf"
  | .undefined => "nan"

end Double

end RuleChart
