import Mathlib.Algebra.Order.Field.Rat
import Mathlib.Algebra.BigOperators.Group.List.Basic
import Mathlib.Algebra.Order.BigOperators.Group.List
import Mathlib.Tactic.Linarith
import Mathlib.Tactic.Ring
import RuleChart.Layout.Canvas
import RuleChart.Proofs.Tree.Numbering

namespace RuleChart

namespace Placed

variable {K : Type}

def levelStart (orientation : Orientation) (box : Placed K) : K :=
  match orientation with
  | .vertical => box.y
  | .horizontal => box.x

def levelEnd [Add K] (orientation : Orientation) (box : Placed K) : K :=
  match orientation with
  | .vertical => box.y + box.height
  | .horizontal => box.x + box.width

def siblingStart (orientation : Orientation) (box : Placed K) : K :=
  match orientation with
  | .vertical => box.x
  | .horizontal => box.y

def siblingEnd [Add K] (orientation : Orientation) (box : Placed K) : K :=
  match orientation with
  | .vertical => box.x + box.width
  | .horizontal => box.y + box.height

end Placed

namespace Scalar

theorem greater_eq_max (first second : ℚ) : greater first second = max first second :=
  (max_def_lt first second).symm

theorem lesser_eq_min (first second : ℚ) : lesser first second = min first second := by
  rw [min_comm, min_def_lt, lesser]

theorem total_eq_sum (values : List ℚ) : total values = values.sum := by
  rw [List.sum_eq_foldl, total, Nat.cast_zero]

end Scalar

namespace Sizes

/-- The sizes that are not refused. -/
theorem fault?_eq_none_iff {sizes : Sizes ℚ} :
    sizes.fault? = none ↔
      0 < sizes.nodeHeight ∧ (0 ≤ sizes.horizontalSpacing ∧ 0 ≤ sizes.verticalSpacing) ∧
        (0 ≤ sizes.charWidth ∧ 0 ≤ sizes.nodePadding) ∧
        0 < sizes.minNodeWidth ∧ sizes.minNodeWidth ≤ sizes.maxNodeWidth := by
  simp only [fault?, Nat.cast_zero, ite_eq_iff, reduceCtorEq, and_false, false_or, and_true,
    or_false, not_le, not_or, not_lt]

theorem nodeWidth_pos {sizes : Sizes ℚ} (accepted : sizes.fault? = none) (label : String) :
    0 < sizes.nodeWidth label := by
  obtain ⟨-, -, -, least, ordered⟩ := fault?_eq_none_iff.mp accepted
  rw [nodeWidth, Scalar.lesser_eq_min, Scalar.greater_eq_max]
  exact lt_min (lt_max_of_lt_right least) (least.trans_le ordered)

end Sizes

namespace LayoutConfig

variable {config : LayoutConfig ℚ}

/-- The space between a level and the next. -/
def levelGap {K : Type} (config : LayoutConfig K) : K :=
  match config.orientation with
  | .vertical => config.sizes.verticalSpacing
  | .horizontal => config.sizes.horizontalSpacing

theorem levelGap_nonneg (accepted : config.sizes.fault? = none) : 0 ≤ config.levelGap := by
  obtain ⟨-, ⟨horizontal, vertical⟩, -⟩ := Sizes.fault?_eq_none_iff.mp accepted
  unfold levelGap
  split <;> assumption

theorem siblingGap_nonneg (accepted : config.sizes.fault? = none) : 0 ≤ config.siblingGap := by
  obtain ⟨-, ⟨horizontal, vertical⟩, -⟩ := Sizes.fault?_eq_none_iff.mp accepted
  unfold siblingGap
  split <;> assumption

/-- What a measured node has to hold for its box and its children to fit in its span. -/
structure Fits (config : LayoutConfig ℚ) (measured : Measured ℚ)
    (children : List (Tree (Measured ℚ))) : Prop where
  width_pos : 0 < measured.width
  breadth_eq : measured.breadth =
    match config.orientation with
    | .vertical => measured.width
    | .horizontal => config.sizes.nodeHeight
  breadth_le : measured.breadth ≤ measured.span
  block_le : config.blockSpan children ≤ measured.span

theorem breadth_pos {measured : Measured ℚ} {children : List (Tree (Measured ℚ))}
    (accepted : config.sizes.fault? = none) (fits : config.Fits measured children) :
    0 < measured.breadth := by
  have height := (Sizes.fault?_eq_none_iff.mp accepted).1
  rw [fits.breadth_eq]
  split
  · exact fits.width_pos
  · exact height

theorem measurePart_fits (accepted : config.sizes.fault? = none) (part : NodeTree)
    (children : List (Tree (Measured ℚ))) :
    config.Fits (config.measurePart part children).value children := by
  have wide := Sizes.nodeWidth_pos accepted part.value.label
  have high := (Sizes.fault?_eq_none_iff.mp accepted).1
  cases children with
  | nil =>
      refine ⟨wide, rfl, le_rfl, ?_⟩
      have empty : config.blockSpan [] = 0 := by simp [blockSpan, Scalar.total_eq_sum]
      rw [empty]
      simp only [measurePart, Tree.value_node]
      split <;> linarith
  | cons child rest =>
      refine ⟨wide, rfl, ?_, ?_⟩
      · simp only [measurePart, Tree.value_node, Scalar.greater_eq_max]
        exact le_max_left _ _
      · simp only [measurePart, Tree.value_node, Scalar.greater_eq_max]
        exact le_max_right _ _

theorem value_measure_fits (accepted : config.sizes.fault? = none) (tree : NodeTree) :
    config.Fits (config.measure tree).value (config.measure tree).children := by
  cases tree with
  | node node children =>
      rw [measure]
      exact measurePart_fits accepted _ _

theorem span_pos (accepted : config.sizes.fault? = none) (tree : NodeTree) :
    0 < (config.measure tree).value.span :=
  have fits := value_measure_fits accepted tree
  (breadth_pos accepted fits).trans_le fits.breadth_le

theorem measureAll_eq_map (trees : List NodeTree) :
    config.measureAll trees = trees.map config.measure := by
  induction trees with
  | nil => rfl
  | cons tree rest restIH => rw [measureAll, restIH, List.map_cons]

/-- How far from the first of several siblings the one at an index starts. -/
def offset (config : LayoutConfig ℚ) (trees : List (Tree (Measured ℚ))) (index : Nat) : ℚ :=
  ((trees.take index).map (fun tree => tree.value.span + config.siblingGap)).sum

theorem getElem?_placeAll (main cross : ℚ) (trees : List (Tree (Measured ℚ))) (index : Nat) :
    (config.placeAll main cross trees)[index]? =
      trees[index]?.map (config.place main (cross + config.offset trees index)) := by
  induction trees generalizing cross index with
  | nil => rfl
  | cons tree rest restIH =>
      cases index with
      | zero => simp [placeAll, offset]
      | succ index => simp [placeAll, restIH, offset, add_assoc]

/-- Behind the last of several siblings there would be room for the gap to another one. -/
theorem offset_length (config : LayoutConfig ℚ) {trees : List (Tree (Measured ℚ))}
    (several : 0 < trees.length) :
    config.offset trees trees.length = config.blockSpan trees + config.siblingGap := by
  have gaps : ((trees.length - 1 : Nat) : ℚ) = trees.length - 1 := Nat.cast_pred several
  rw [offset, blockSpan, Scalar.total_eq_sum, List.take_length, List.sum_map_add,
    List.map_const', List.sum_replicate, nsmul_eq_mul, gaps]
  ring

section Row

variable {trees : List NodeTree} {tree : NodeTree} {index : Nat}

theorem offset_succ (found : trees[index]? = some tree) :
    config.offset (trees.map config.measure) (index + 1) =
      config.offset (trees.map config.measure) index +
        ((config.measure tree).value.span + config.siblingGap) := by
  simp [offset, List.take_add_one, found]

theorem offset_mono (accepted : config.sizes.fault? = none) (trees : List NodeTree) :
    Monotone (config.offset (trees.map config.measure)) := by
  refine monotone_nat_of_le_succ fun index => ?_
  cases found : trees[index]? with
  | none => simp [offset, List.take_add_one, found]
  | some tree =>
      have span := span_pos accepted tree
      have gap := siblingGap_nonneg accepted
      rw [offset_succ found]
      linarith

theorem offset_nonneg (accepted : config.sizes.fault? = none) (trees : List NodeTree)
    (index : Nat) : 0 ≤ config.offset (trees.map config.measure) index :=
  offset_mono accepted trees index.zero_le

/-- A sibling ends a gap before any later one starts. -/
theorem offset_lt (accepted : config.sizes.fault? = none) (found : trees[index]? = some tree)
    {later : Nat} (before : index < later) :
    config.offset (trees.map config.measure) index + (config.measure tree).value.span +
      config.siblingGap ≤ config.offset (trees.map config.measure) later := by
  rw [add_assoc, ← offset_succ found]
  exact offset_mono accepted trees before

/-- Every sibling ends within their block. -/
theorem offset_le_block (accepted : config.sizes.fault? = none)
    (found : trees[index]? = some tree) :
    config.offset (trees.map config.measure) index + (config.measure tree).value.span ≤
      config.blockSpan (trees.map config.measure) := by
  have listed : index < trees.length := (List.getElem?_eq_some_iff.mp found).1
  have room := offset_lt accepted found listed
  have several : 0 < (trees.map config.measure).length := by
    simpa using Nat.zero_lt_of_lt listed
  have last := offset_length config several
  rw [List.length_map] at last
  linarith

end Row

end LayoutConfig

end RuleChart
