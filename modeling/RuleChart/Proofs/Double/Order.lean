import RuleChart.Layout.Scalar
import RuleChart.Proofs.Double.Units

namespace RuleChart.Double

open Float.Model (UnpackedFloat)
open Float.Model.UnpackedFloat

/-- A double that is not below zero holds so many of the least positive double. -/
def Holds (x : Float) (amount : ℕ∞) : Prop := Counts x.toModel.unpack amount

theorem lt_iff_compare {x y : Float} :
    x < y ↔ x.toModel.unpack.compare y.toModel.unpack = some .lt :=
  decide_eq_true_iff.trans beq_iff_eq

theorem le_iff_compare {x y : Float} :
    x ≤ y ↔ (x.toModel.unpack.compare y.toModel.unpack).any (·.isLE) = true :=
  decide_eq_true_iff

theorem Holds.lt_iff {x y : Float} {amountX amountY : ℕ∞} (holdsX : Holds x amountX)
    (holdsY : Holds y amountY) : x < y ↔ amountX < amountY := by
  rw [lt_iff_compare, Counts.compare_eq holdsX holdsY, Option.some.injEq, compare_lt_iff_lt]

theorem Holds.le_iff {x y : Float} {amountX amountY : ℕ∞} (holdsX : Holds x amountX)
    (holdsY : Holds y amountY) : x ≤ y ↔ amountX ≤ amountY := by
  rw [le_iff_compare, Counts.compare_eq holdsX holdsY, Option.any_some]
  exact Ordering.ne_gt_iff_isLE.symm.trans compare_le_iff_le

theorem isNaN_iff {x : Float} : x.isNaN = true ↔ x.toModel.unpack = .notANumber := by
  change x.toModel.unpack.isNaN = true ↔ _
  cases x.toModel.unpack <;> simp [UnpackedFloat.isNaN]

theorem Holds.isNaN {x : Float} {amount : ℕ∞} (holds : Holds x amount) : x.isNaN = false := by
  refine Bool.eq_false_iff.mpr fun undefined => ?_
  rw [Holds, isNaN_iff.mp undefined] at holds
  cases holds

/-- Nothing is before or after what is no number. -/
theorem not_lt_of_isNaN {x y : Float} (undefined : x.isNaN = true ∨ y.isNaN = true) :
    ¬ x < y ∧ ¬ x ≤ y := by
  have unordered : x.toModel.unpack.compare y.toModel.unpack = none := by
    rcases undefined with undefined | undefined
    · rw [isNaN_iff.mp undefined]
      rfl
    · rw [isNaN_iff.mp undefined]
      cases x.toModel.unpack <;> rfl
  simp [lt_iff_compare, le_iff_compare, unordered]

theorem unpack_zero : (Float.toModel ((0 : Nat) : Float)).unpack = .zero .positive := by
  have stored : Float.toModel ((0 : Nat) : Float) = .pack (.zero .positive) := by decide
  rw [stored]
  rfl

theorem holds_zero : Holds ((0 : Nat) : Float) 0 := by
  rw [Holds, unpack_zero]
  exact .zero .positive

theorem le_of_lt {x y : Float} (less : x < y) : x ≤ y := by
  rw [le_iff_compare, lt_iff_compare.mp less]
  rfl

/-- A double holds an amount, or is no number, or is below zero. -/
theorem holds_cases (x : Float) :
    (∃ amount, Holds x amount) ∨ x.isNaN = true ∨ Negative x.toModel.unpack := by
  rw [isNaN_iff]
  exact counts_or_negative x.toModel.toBits.toBitVec

theorem exists_holds {x : Float} (number : x.isNaN = false)
    (nonnegative : ¬ x < ((0 : Nat) : Float)) : ∃ amount, Holds x amount := by
  rcases holds_cases x with holds | undefined | below
  · exact holds
  · exact absurd (number.symm.trans undefined) Bool.false_ne_true
  · exact absurd (lt_iff_compare.mpr (below.lt holds_zero)) nonnegative

/-- What an amount is before holds one too. -/
theorem Holds.of_le {x y : Float} {amount : ℕ∞} (holds : Holds x amount) (ordered : x ≤ y) :
    ∃ more, Holds y more := by
  rcases holds_cases y with holdsY | undefined | below
  · exact holdsY
  · exact absurd ordered (not_lt_of_isNaN (.inr undefined)).2
  · rw [le_iff_compare, below.gt holds] at ordered
    cases ordered

theorem isNaN_or_nonneg {x : Float} (checked : ¬ x < ((0 : Nat) : Float)) : x.isNaN ∨ 0 ≤ x := by
  cases defined : x.isNaN with
  | true => exact .inl rfl
  | false =>
      obtain ⟨amount, holds⟩ := exists_holds defined checked
      exact .inr ((holds_zero.le_iff holds).mpr zero_le)

theorem isNaN_or_pos {x : Float} (checked : ¬ x ≤ ((0 : Nat) : Float)) : x.isNaN ∨ 0 < x := by
  cases defined : x.isNaN with
  | true => exact .inl rfl
  | false =>
      obtain ⟨amount, holds⟩ := exists_holds defined (mt le_of_lt checked)
      exact .inr ((holds_zero.lt_iff holds).mpr
        (not_le.mp (mt (holds.le_iff holds_zero).mpr checked)))

/-- Of two numbers, the greater. -/
theorem Holds.greater {x y : Float} {amountX amountY : ℕ∞} (holdsX : Holds x amountX)
    (holdsY : Holds y amountY) : Holds (Scalar.greater x y) (max amountX amountY) := by
  unfold Scalar.greater
  by_cases less : x < y
  · rw [if_pos less, max_eq_right ((holdsX.lt_iff holdsY).mp less).le]
    exact holdsY
  · rw [if_neg less, max_eq_left (not_lt.mp (mt (holdsX.lt_iff holdsY).mpr less))]
    exact holdsX

theorem Holds.lesser {x y : Float} {amountX amountY : ℕ∞} (holdsX : Holds x amountX)
    (holdsY : Holds y amountY) : Holds (Scalar.lesser x y) (min amountX amountY) := by
  unfold Scalar.lesser
  by_cases less : y < x
  · rw [if_pos less, min_eq_right ((holdsY.lt_iff holdsX).mp less).le]
    exact holdsY
  · rw [if_neg less, min_eq_left (not_lt.mp (mt (holdsY.lt_iff holdsX).mpr less))]
    exact holdsX

theorem Holds.isInf_iff {x : Float} {amount : ℕ∞} (holds : Holds x amount) :
    x.isInf = true ↔ amount = ⊤ := by
  unfold Holds at holds
  change x.toModel.unpack.isInf = true ↔ _
  generalize x.toModel.unpack = unpacked at holds
  cases holds with
  | zero => exact iff_of_false Bool.false_ne_true ENat.zero_ne_top
  | finite => exact iff_of_false Bool.false_ne_true (ENat.natCast_ne_top _)
  | infinite => exact iff_of_true rfl rfl

theorem Holds.le_zero_iff {x : Float} {amount : ℕ∞} (holds : Holds x amount) :
    x ≤ 0 ↔ amount = 0 :=
  (holds.le_iff holds_zero).trans nonpos_iff_eq_zero

end RuleChart.Double
