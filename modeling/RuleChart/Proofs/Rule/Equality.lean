import RuleChart.Proofs.Label.Congruence

namespace RuleChart

namespace Number

open Double (Value)

def value? : Number → Option Value
  | .int whole => some (.rational whole)
  | .float value => (Double.ofFloat value).value?

def Equal (left right : Number) : Prop :=
  ∃ value, left.value? = some value ∧ right.value? = some value

theorem value?_canonical (number : Number) : number.canonical.value? = number.value? := by
  cases number with
  | int => rfl
  | float value =>
      cases found : (Double.ofFloat value).integer? with
      | none => simp only [canonical, found]
      | some whole =>
          simpa [canonical, found, value?] using (Double.integer?_eq_some_iff.mp found).symm

theorem canonical_of_integer {number : Number} {whole : Int}
    (value : number.value? = some (.rational whole)) : number.canonical = .int whole := by
  cases number with
  | int other =>
      obtain rfl : other = whole := by simpa [value?] using value
      rfl
  | float => simp only [canonical, Double.integer?_eq_some_iff.mpr value]

theorem canonical_of_equal {left right : Number} (equal : left.Equal right) :
    left.canonical = right.canonical := by
  obtain ⟨value, leftValue, rightValue⟩ := equal
  by_cases integral : ∃ whole : Int, value = .rational whole
  · obtain ⟨whole, rfl⟩ := integral
    rw [canonical_of_integer leftValue, canonical_of_integer rightValue]
  -- Zero is an integer, so a double with this value is the only one.
  · cases left with
    | int whole => exact absurd ⟨whole, Option.some.inj leftValue.symm⟩ integral
    | float x =>
    cases right with
    | int whole => exact absurd ⟨whole, Option.some.inj rightValue.symm⟩ integral
    | float y =>
        have nonzero : value ≠ .rational 0 := fun zero => integral ⟨0, by simpa using zero⟩
        have defined : Double.ofFloat x ≠ .undefined := by
          intro undefined
          simp [value?, undefined, Double.value?] at leftValue
        rw [(Double.ofFloat_inj defined).mp
          (Double.ofFloat_eq_of_value? leftValue rightValue nonzero)]

theorem canonical_eq_iff {left right : Number} (defined : left.value?.isSome) :
    left.canonical = right.canonical ↔ left.Equal right := by
  constructor
  · intro same
    obtain ⟨value, leftValue⟩ := Option.isSome_iff_exists.mp defined
    refine ⟨value, leftValue, ?_⟩
    rw [← value?_canonical right, ← same, value?_canonical, leftValue]
  · exact canonical_of_equal

end Number

namespace Rule

/-- No number of the rule is `NaN`. -/
def Defined (rule : Rule) : Prop := ∀ number ∈ rule.numbers, number.value?.isSome

instance (rule : Rule) : Decidable rule.Defined :=
  inferInstanceAs (Decidable (∀ number ∈ rule.numbers, number.value?.isSome))

mutual

def Equal : Rule → Rule → Prop
  | .null, .null => True
  | .bool left, .bool right => left = right
  | .number left, .number right => left.Equal right
  | .string left, .string right => left = right
  | .list left, .list right => EqualAll left right
  | .emptyObject, .emptyObject => True
  | .apply operator operands keys, .apply operator' operands' keys' =>
      operator = operator' ∧ EqualAll operands operands' ∧ keys = keys'
  | .applyOne operator operand keys, .applyOne operator' operand' keys' =>
      operator = operator' ∧ operand.Equal operand' ∧ keys = keys'
  | _, _ => False

def EqualAll : List Rule → List Rule → Prop
  | [], [] => True
  | left :: lefts, right :: rights => left.Equal right ∧ EqualAll lefts rights
  | _, _ => False

end

mutual

theorem canonical_eq_iff (left right : Rule) (defined : left.Defined) :
    left.canonical = right.canonical ↔ left.Equal right := by
  cases left <;> cases right <;>
    simp only [canonical, Equal, reduceCtorEq, number.injEq, list.injEq, apply.injEq,
      applyOne.injEq, bool.injEq, string.injEq]
  case number.number =>
    exact Number.canonical_eq_iff (defined _ (by simp [numbers]))
  case list.list items items' =>
    exact canonicalAll_eq_iff items items' defined
  case apply.apply operator operands _ operator' operands' _ =>
    rw [canonicalAll_eq_iff operands operands' defined]
  case applyOne.applyOne operator operand _ operator' operand' _ =>
    rw [canonical_eq_iff operand operand' defined]

theorem canonicalAll_eq_iff (left right : List Rule)
    (defined : ∀ number ∈ numbersAll left, number.value?.isSome) :
    canonicalAll left = canonicalAll right ↔ EqualAll left right := by
  match left, right with
  | [], [] => simp [canonicalAll, EqualAll]
  | [], _ :: _ => simp [canonicalAll, EqualAll]
  | _ :: _, [] => simp [canonicalAll, EqualAll]
  | left :: lefts, right :: rights =>
      simp only [numbersAll, List.mem_append, or_imp, forall_and] at defined
      simp [canonicalAll, EqualAll, canonical_eq_iff left right defined.1,
        canonicalAll_eq_iff lefts rights defined.2]

end

end Rule

end RuleChart
