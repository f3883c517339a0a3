import Mathlib.Data.List.Forall2
import RuleChart.Proofs.Layout.Tight

namespace RuleChart

/-! A layout does not shrink when nodes are expanded.

Boxes move along the sibling axis in either direction when something next to them is expanded, but
the span of a subtree only grows.  Along the other axis the boxes stay where they are, and new ones
come to them.
-/

namespace NodeTree

/-- The second tree differs from the first in its flags only, and whatever is expanded in the first
is expanded in it as well. -/
structure UnfoldsTo (tree other : NodeTree) : Prop where
  same : tree.unflagged = other.unflagged
  expanded : ∀ address node, tree.get? address = some node → node.expanded = true →
    (other.get? address).any Node.expanded = true

variable {tree other : NodeTree}

theorem unfoldsTo_expandAll (tree : NodeTree) : tree.UnfoldsTo (expandAll tree) := by
  refine ⟨(unflagged_edit tree .expandAll).symm, fun address node found _ => ?_⟩
  rw [expandAll, Tree.get?_map, found]
  rfl

theorem UnfoldsTo.label_eq (more : tree.UnfoldsTo other) :
    tree.value.label = other.value.label := by
  have root := congrArg (fun tree => tree.value.label) more.same
  simp only [unflagged, Tree.value_map] at root
  exact root

theorem UnfoldsTo.children (more : tree.UnfoldsTo other) :
    List.Forall₂ UnfoldsTo tree.children other.children := by
  have below := congrArg Tree.children more.same
  simp only [unflagged, Tree.children_map] at below
  have count : tree.children.length = other.children.length := by
    simpa using congrArg List.length below
  refine List.forall₂_iff_get.mpr ⟨count, fun index inTree inOther => ⟨?_, ?_⟩⟩
  · have part := congrArg (fun trees => trees[index]?) below
    simp only [List.getElem?_map, List.getElem?_eq_getElem inTree,
      List.getElem?_eq_getElem inOther, Option.map_some, Option.some.injEq] at part
    exact part
  · intro address node inside expanded
    have kept := more.expanded (index :: address) node
    rw [Tree.get?_cons, Tree.get?_cons, List.getElem?_eq_getElem inTree,
      List.getElem?_eq_getElem inOther] at kept
    exact kept inside expanded

/-- Either nothing stands below the root of the first tree, or the same children stand below both
roots. -/
theorem UnfoldsTo.unfolded (more : tree.UnfoldsTo other) :
    tree.unfolded = [] ∨ List.Forall₂ UnfoldsTo tree.unfolded other.unfolded := by
  cases expanded : tree.value.expanded with
  | false => exact .inl (if_neg (by simp [expanded]))
  | true =>
      have kept : other.value.expanded = true := more.expanded [] tree.value rfl expanded
      rw [NodeTree.unfolded, NodeTree.unfolded, if_pos expanded, if_pos kept]
      exact .inr more.children

theorem UnfoldsTo.child (more : tree.UnfoldsTo other) {index : Nat} {child : NodeTree}
    (found : tree.unfolded[index]? = some child) :
    ∃ counterpart, other.unfolded[index]? = some counterpart ∧ child.UnfoldsTo counterpart := by
  rcases more.unfolded with none | below
  · rw [none] at found
    cases found
  · obtain ⟨inTree, same⟩ := List.getElem?_eq_some_iff.mp found
    obtain ⟨count, each⟩ := List.forall₂_iff_get.mp below
    have inOther := count ▸ inTree
    exact ⟨_, List.getElem?_eq_getElem inOther, same ▸ each index inTree inOther⟩

end NodeTree

namespace LayoutConfig

variable {config : LayoutConfig ℚ}

theorem breadth_congr {node other : Node} (same : node.label = other.label) :
    config.breadth node = config.breadth other := by
  rw [breadth, breadth, same]

/-- The span of a subtree grows with what is expanded in it. -/
theorem span_mono (accepted : config.sizes.fault? = none) {tree other : NodeTree}
    (more : tree.UnfoldsTo other) : config.span tree ≤ config.span other := by
  induction tree using Tree.children_induction generalizing other with
  | step tree childIH =>
      have own : config.breadth tree.value = config.breadth other.value :=
        breadth_congr more.label_eq
      rw [span_eq accepted tree, span_eq accepted other, own]
      rcases more.unfolded with none | below
      · rw [none]
        refine max_le (le_max_left _ _) ((le_of_eq ?_).trans
          ((breadth_nonneg accepted other.value).trans (le_max_left _ _)))
        simp [rowSpan]
      · refine max_le_max le_rfl ?_
        have spans : List.Forall₂ (· ≤ ·) ((NodeTree.unfolded tree).map config.span)
            (other.unfolded.map config.span) := by
          rw [List.forall₂_map_left_iff, List.forall₂_map_right_iff]
          obtain ⟨count, each⟩ := List.forall₂_iff_get.mp below
          refine List.forall₂_iff_get.mpr ⟨count, fun index inTree inOther => ?_⟩
          have listed := child_of_unfolded (List.getElem?_eq_getElem inTree)
          exact childIH _ (List.mem_of_getElem? listed) (each index inTree inOther)
        rw [rowSpan, rowSpan, below.length_eq]
        exact add_le_add_left spans.sum_le_sum _

theorem width_measure (tree : NodeTree) :
    (config.measure tree).value.width = config.sizes.nodeWidth tree.value.label := by
  cases tree with
  | node node children =>
      rw [measure]
      rfl

theorem nextLevel_congr (main : ℚ) {measured other : Measured ℚ}
    (same : measured.width = other.width) :
    config.nextLevel main measured = config.nextLevel main other := by
  rw [nextLevel, nextLevel, same]

theorem levelEnd_position (main cross : ℚ) (measured : Measured ℚ) :
    (config.position main cross measured).levelEnd config.orientation =
      config.nextLevel main measured - config.levelGap := by
  rw [nextLevel_eq main cross, add_sub_cancel_right]

/-- A box of the second layout that takes the same place on the axis of the levels. -/
structure SameLevel (config : LayoutConfig ℚ) (box counterpart : Placed ℚ) : Prop where
  start : counterpart.levelStart config.orientation = box.levelStart config.orientation
  finish : counterpart.levelEnd config.orientation = box.levelEnd config.orientation

/-- Every box has a counterpart at its address when more is expanded, whatever the spans are. -/
theorem exists_sameLevel {tree other : NodeTree} (more : tree.UnfoldsTo other)
    {address : List Nat} {main cross : ℚ} {box : Placed ℚ} (otherCross : ℚ)
    (found : (config.arrangeAt main cross tree).get? address = some box) :
    ∃ counterpart, (config.arrangeAt main otherCross other).get? address = some counterpart ∧
      config.SameLevel box counterpart := by
  have next : config.nextLevel main (config.measure tree).value =
      config.nextLevel main (config.measure other).value := by
    refine nextLevel_congr main ?_
    rw [width_measure, width_measure, more.label_eq]
  induction address generalizing tree other main cross otherCross with
  | nil =>
      rw [Tree.get?_nil, value_arrangeAt, Option.some.injEq] at found
      subst found
      refine ⟨_, Tree.get?_nil _, ?_, ?_⟩
      · rw [value_arrangeAt, levelStart_position, levelStart_position]
      · rw [value_arrangeAt, levelEnd_position, levelEnd_position, next]
  | cons index address addressIH =>
      obtain ⟨child, listed, inside⟩ := get?_arrangeAt_cons found
      obtain ⟨counterpart, otherListed, below⟩ := more.child listed
      rw [get?_arrangeAt_of_child main otherCross otherListed, ← next]
      refine addressIH below _ inside (nextLevel_congr _ ?_)
      rw [width_measure, width_measure, below.label_eq]

/-- The canvas does not shrink along either axis. -/
theorem sizes_mono [Extremes ℚ] [LawfulExtremes ℚ] (accepted : config.sizes.fault? = none)
    {tree other : NodeTree} (more : tree.UnfoldsTo other) :
    (config.layout tree).siblingSize config.orientation ≤
        (config.layout other).siblingSize config.orientation ∧
      (config.layout tree).levelSize config.orientation ≤
        (config.layout other).levelSize config.orientation := by
  constructor
  · rw [siblingSize_eq_span accepted, siblingSize_eq_span accepted]
    exact add_le_add_left (span_mono accepted more) _
  · rw [levelSize_layout, levelSize_layout]
    refine add_le_add_left ((isGreatest_greatestOf _ _).mono (isGreatest_greatestOf _ _) ?_) _
    rintro _ ⟨box, member, rfl⟩
    obtain ⟨address, found⟩ := Tree.mem_preorder_iff.mp member
    rw [arrange_eq] at found ⊢
    obtain ⟨counterpart, same, level⟩ := exists_sameLevel more 0 found
    exact ⟨counterpart, Tree.mem_preorder_iff.mpr ⟨address, same⟩, level.finish⟩

/-- Expanding nodes of a tree makes its canvas neither narrower nor lower.  What was visible stays
so, and its box stays where it is along the axis on which the tree grows. -/
theorem layout_grows [Extremes ℚ] [LawfulExtremes ℚ] (config : LayoutConfig ℚ)
    (accepted : config.sizes.fault? = none) {tree other : NodeTree} (more : tree.UnfoldsTo other) :
    (config.layout tree).width ≤ (config.layout other).width ∧
      (config.layout tree).height ≤ (config.layout other).height ∧
      ∀ address node, tree.get? address = some node → tree.expandedAbove address = true →
        other.expandedAbove address = true ∧
          ∃ box counterpart, (config.arrange tree).get? address = some box ∧
            (config.arrange other).get? address = some counterpart ∧
            box.node = node ∧ other.get? address = some counterpart.node ∧
            counterpart.levelStart config.orientation = box.levelStart config.orientation := by
  obtain ⟨sibling, level⟩ := sizes_mono accepted more
  obtain ⟨width, height⟩ := Layout.le_of_sizes sibling level
  refine ⟨width, height, fun address node found visible => ?_⟩
  obtain ⟨box, listed, rfl⟩ := (exists_box_iff config).mpr ⟨found, visible⟩
  rw [arrange_eq] at listed
  obtain ⟨counterpart, otherListed, same⟩ := exists_sameLevel more 0 listed
  rw [← arrange_eq] at listed otherListed
  obtain ⟨otherFound, otherVisible⟩ := (exists_box_iff config).mp ⟨counterpart, otherListed, rfl⟩
  exact ⟨otherVisible, box, counterpart, listed, otherListed, rfl, otherFound, same.start⟩

/-- A node that moves down when its sibling is expanded, but not to the right. -/
theorem layout_grows_of_sibling :
    let config : LayoutConfig ℚ :=
      { sizes :=
          { nodeHeight := 10
            horizontalSpacing := 24
            verticalSpacing := 1 / 3
            charWidth := 8
            nodePadding := 6
            minNodeWidth := 12
            maxNodeWidth := 40 }
        orientation := .horizontal }
    let node (label : String) (expanded : Bool) : Node :=
      { (default : Node) with label, expanded }
    let leaf (label : String) : NodeTree := .node (node label true) []
    let tree : NodeTree :=
      .node (node "and" true) [.node (node "or" false) [leaf "x", leaf "y"], leaf "z"]
    let other := tree.expandAll
    config.sizes.fault? = none ∧ tree.UnfoldsTo other ∧
      (config.layout tree).nodes.map (fun box => (box.x, box.y)) =
        [(0, 31 / 6), (54, 0), (54, 31 / 3)] ∧
      (config.layout other).nodes.map (fun box => (box.x, box.y)) =
        [(0, 31 / 3), (54, 31 / 6), (100, 0), (100, 31 / 3), (54, 62 / 3)] ∧
      (config.layout tree).width ≤ (config.layout other).width ∧
      (config.layout tree).height ≤ (config.layout other).height ∧
      other.expandedAbove [1] = true ∧
        ∃ box counterpart, (config.arrange tree).get? [1] = some box ∧
          (config.arrange other).get? [1] = some counterpart ∧
          box.node = node "z" true ∧ other.get? [1] = some counterpart.node ∧
          counterpart.levelStart .horizontal = box.levelStart .horizontal := by
  intro config node leaf tree other
  have accepted : config.sizes.fault? = none := Sizes.fault?_eq_none_iff.mpr (by norm_num [config])
  have more : tree.UnfoldsTo other := tree.unfoldsTo_expandAll
  obtain ⟨width, height, visible⟩ := layout_grows config accepted more
  exact ⟨accepted, more, by decide +kernel, by decide +kernel, width, height,
    visible [1] (node "z" true) rfl rfl⟩

end LayoutConfig

end RuleChart
