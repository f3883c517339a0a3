import RuleChart.Proofs.Label.Congruence
import RuleChart.Proofs.Rule.Nesting
import RuleChart.Proofs.Rule.Path

namespace RuleChart

/-- The value is defined and its magnitude is below `bound`. -/
def Double.Below (bound : Nat) : Double → Prop
  | .finite _ mantissa exponent =>
      (ratio mantissa exponent).1 < bound * (ratio mantissa exponent).2
  | .infinite _ => False
  | .undefined => False

/-- Numbers that are no NaN and have a magnitude below `10 ^ 21`. -/
def Number.Ordinary : Number → Prop
  | .int value => value.natAbs < integralBound
  | .float value => (Double.ofFloat value).Below integralBound

instance (bound : Nat) : (value : Double) → Decidable (value.Below bound)
  | .finite _ mantissa exponent =>
      inferInstanceAs (Decidable (_ < bound * (Double.ratio mantissa exponent).2))
  | .infinite _ | .undefined => inferInstanceAs (Decidable False)

instance : (number : Number) → Decidable number.Ordinary
  | .int value => inferInstanceAs (Decidable (value.natAbs < _))
  | .float value => inferInstanceAs (Decidable ((Double.ofFloat value).Below _))

theorem Number.Ordinary.not_clash {left right : Number} (leftOrdinary : left.Ordinary)
    (rightOrdinary : right.Ordinary) : ¬ Clash left right := by
  rintro ⟨value, whole, ⟨-, large⟩, ⟨rfl, rfl⟩ | ⟨rfl, rfl⟩⟩
  · exact absurd rightOrdinary (Nat.not_lt.mpr large)
  · exact absurd leftOrdinary (Nat.not_lt.mpr large)

namespace Rule

theorem mem_numbersAll {number : Number} {rules : List Rule} :
    number ∈ numbersAll rules ↔ ∃ rule ∈ rules, number ∈ rule.numbers := by
  induction rules with
  | nil => simp [numbersAll]
  | cons rule rest restIH => simp [numbersAll, restIH]

theorem numbers_of_child {rule child : Rule} (member : child ∈ rule.children) :
    child.numbers ⊆ rule.numbers := by
  intro number inside
  cases rule with
  | list | apply => exact mem_numbersAll.mpr ⟨child, member, inside⟩
  | applyOne operator operand keys =>
      obtain rfl : child = operand := List.mem_singleton.mp member
      exact inside
  | _ => cases member

theorem numbers_of_step {rule part : Rule} {step : List String}
    (entered : (step, part) ∈ rule.steps) : part.numbers ⊆ rule.numbers := by
  rcases part_of_step entered with inside | ⟨operator, condition, value, rest, keys, rfl, -, rfl⟩
  · exact numbers_of_child inside
  · intro number inside
    simp only [numbers, numbersAll, List.mem_append] at inside ⊢
    exact .inr (.inr inside)

mutual

theorem numbers_cut (room : Nat) (rule : Rule) : (rule.cut room).numbers ⊆ rule.numbers := by
  cases rule with
  | null | bool | number | string | emptyObject => exact List.Subset.refl _
  | list items | apply operator items keys =>
      rw [cut]
      split
      · exact List.nil_subset _
      · exact numbers_cutAll (room - 1) items
  | applyOne operator operand keys =>
      rw [cut]
      split
      · exact List.nil_subset _
      · exact numbers_cut (room - 1) operand

theorem numbers_cutAll (room : Nat) (rules : List Rule) :
    numbersAll (cutAll room rules) ⊆ numbersAll rules := by
  cases rules with
  | nil => exact List.Subset.refl _
  | cons rule rest =>
      exact List.append_subset.mpr
        ⟨List.Subset.trans (numbers_cut room rule) (List.subset_append_left _ _),
          List.Subset.trans (numbers_cutAll room rest) (List.subset_append_right _ _)⟩

end

theorem numbers_limitDepth (limit : Int) (rule : Rule) :
    (rule.limitDepth limit).numbers ⊆ rule.numbers := by
  rw [limitDepth_eq_cut]
  exact numbers_cut _ rule

end Rule

end RuleChart
