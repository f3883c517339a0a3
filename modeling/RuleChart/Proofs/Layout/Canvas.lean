import Mathlib.Order.Bounds.Basic
import RuleChart.Proofs.Layout.Span

namespace RuleChart

/-- The greatest number of an array is one of them, and no other is greater. -/
class LawfulExtremes (K : Type) [LE K] [Extremes K] : Prop where
  isGreatest (first : K) (rest : List K) :
    IsGreatest {value | value ∈ first :: rest} (Extremes.greatest first rest)

namespace Scalar

theorem greatest_eq_foldl (first : ℚ) (rest : List ℚ) :
    greatest first rest = rest.foldl max first := by
  have ordered (value : ℚ) : isUnordered value = false := by simp [isUnordered]
  simp only [greatest, ordered, greater_eq_max, Bool.false_eq_true, if_false]

end Scalar

instance lawfulExtremesRat : LawfulExtremes ℚ where
  isGreatest first rest := by
    have largest : (first :: rest).max? = some (Scalar.greatest first rest) := by
      rw [List.max?_cons', Scalar.greatest_eq_foldl]
    exact List.max?_eq_some_iff.mp largest

namespace Layout

variable {K : Type}

/-- The size of the canvas along the axis on which levels follow each other. -/
def levelSize (orientation : Orientation) (layout : Layout K) : K :=
  match orientation with
  | .vertical => layout.height
  | .horizontal => layout.width

/-- The size of the canvas along the axis on which siblings stand side by side. -/
def siblingSize (orientation : Orientation) (layout : Layout K) : K :=
  match orientation with
  | .vertical => layout.width
  | .horizontal => layout.height

theorem le_of_sizes [LE K] {orientation : Orientation} {layout other : Layout K}
    (sibling : layout.siblingSize orientation ≤ other.siblingSize orientation)
    (level : layout.levelSize orientation ≤ other.levelSize orientation) :
    layout.width ≤ other.width ∧ layout.height ≤ other.height := by
  cases orientation with
  | vertical => exact ⟨sibling, level⟩
  | horizontal => exact ⟨level, sibling⟩

end Layout

namespace LayoutConfig

variable [Extremes ℚ]

/-- The greatest of what the boxes of a tree are worth. -/
def greatestOf (worth : Placed ℚ → ℚ) (boxes : Tree (Placed ℚ)) : ℚ :=
  Extremes.greatest (worth boxes.value) ((Tree.preorderAll boxes.children).map worth)

theorem isGreatest_greatestOf [LawfulExtremes ℚ] (worth : Placed ℚ → ℚ) (boxes : Tree (Placed ℚ)) :
    IsGreatest (worth '' {box | box ∈ boxes.preorder}) (greatestOf worth boxes) := by
  have listed : worth '' {box | box ∈ boxes.preorder} =
      {value | value ∈ worth boxes.value :: (Tree.preorderAll boxes.children).map worth} := by
    cases boxes with
    | node root children =>
        exact Set.ext fun value => (List.mem_map (l := root :: Tree.preorderAll children)).symm
  rw [listed]
  exact LawfulExtremes.isGreatest _ _

variable (config : LayoutConfig ℚ) (tree : NodeTree)

theorem siblingSize_layout :
    (config.layout tree).siblingSize config.orientation =
      greatestOf (Placed.siblingEnd config.orientation) (config.arrange tree) +
        config.siblingGap := by
  unfold Layout.siblingSize siblingGap
  cases config.orientation <;> rfl

theorem levelSize_layout :
    (config.layout tree).levelSize config.orientation =
      greatestOf (Placed.levelEnd config.orientation) (config.arrange tree) +
        config.levelGap := by
  unfold Layout.levelSize levelGap
  cases config.orientation <;> rfl

end LayoutConfig

end RuleChart
