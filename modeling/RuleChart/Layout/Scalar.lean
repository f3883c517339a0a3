namespace RuleChart

/-! The arithmetic that a layout needs.  Layouts are computed over doubles; nothing in
their definition asks for more than the four operations and comparisons, so the same
definitions lay a tree out over any numbers. -/

instance natCastFloat : NatCast Float := ⟨Float.ofNat⟩

namespace Scalar

variable {K : Type}

/-- The second number only if it is greater. -/
def greater [LT K] [DecidableLT K] (first second : K) : K :=
  if first < second then second else first

/-- The second number only if it is less. -/
def lesser [LT K] [DecidableLT K] (first second : K) : K :=
  if second < first then second else first

/-- The sum from left to right. -/
def total [Add K] [NatCast K] (values : List K) : K :=
  values.foldl (· + ·) ((0 : Nat) : K)

/-- Whether a value is one that no comparison holds of. -/
def isUnordered [BEq K] (value : K) : Bool := value != value

/-- The greatest of several values, or the first that no comparison holds of. -/
def greatest [LT K] [DecidableLT K] [BEq K] (first : K) (rest : List K) : K :=
  rest.foldl
    (fun best value =>
      if isUnordered best then best
      else if isUnordered value then value
      else greater best value)
    first

/-- The least of several values, or the first that no comparison holds of. -/
def least [LT K] [DecidableLT K] [BEq K] (first : K) (rest : List K) : K :=
  rest.foldl
    (fun best value =>
      if isUnordered best then best
      else if isUnordered value then value
      else lesser best value)
    first

end Scalar

/-- The greatest and the least of the numbers of an array, which has a first one.  What they are for
values that no comparison holds of is a matter of their own. -/
class Extremes (K : Type) where
  greatest (first : K) (rest : List K) : K
  least (first : K) (rest : List K) : K

instance extremesOfComparisons {K : Type} [LT K] [DecidableLT K] [BEq K] : Extremes K where
  greatest := Scalar.greatest
  least := Scalar.least

end RuleChart
