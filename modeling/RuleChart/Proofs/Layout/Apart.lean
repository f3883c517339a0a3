import RuleChart.Proofs.Layout.Shown
import RuleChart.Proofs.Layout.Span

namespace RuleChart

/-! No two boxes of an exact layout overlap.

All boxes of a subtree stay in its span and do not start before its level does.  Two nodes
are compared where the ways to them part: there, either one way ends and the other goes on to
the next level, or both go on in the spans of two siblings.
-/

namespace LayoutConfig

variable {config : LayoutConfig ℚ}

section Position

variable {measured : Measured ℚ} {children : List (Tree (Measured ℚ))}

theorem levelStart_position (main cross : ℚ) (measured : Measured ℚ) :
    (config.position main cross measured).levelStart config.orientation = main := by
  unfold position Placed.levelStart
  cases config.orientation <;> rfl

theorem nextLevel_eq (main cross : ℚ) (measured : Measured ℚ) :
    config.nextLevel main measured =
      (config.position main cross measured).levelEnd config.orientation + config.levelGap := by
  unfold nextLevel position Placed.levelEnd levelGap
  cases config.orientation <;> rfl

theorem siblingStart_position (main cross : ℚ) (measured : Measured ℚ) :
    (config.position main cross measured).siblingStart config.orientation =
      cross + (measured.span - measured.breadth) / 2 := by
  unfold position Placed.siblingStart
  cases config.orientation <;> rfl

theorem siblingEnd_position (fits : config.Fits measured children) (main cross : ℚ) :
    (config.position main cross measured).siblingEnd config.orientation =
      cross + (measured.span - measured.breadth) / 2 + measured.breadth := by
  have breadth := fits.breadth_eq
  unfold position Placed.siblingEnd
  cases orientation : config.orientation <;> simp_all

theorem lt_nextLevel (accepted : config.sizes.fault? = none)
    (fits : config.Fits measured children) (main : ℚ) :
    main < config.nextLevel main measured := by
  have high := (Sizes.fault?_eq_none_iff.mp accepted).1
  have gap := levelGap_nonneg accepted
  have wide := fits.width_pos
  unfold nextLevel
  unfold levelGap at gap
  cases orientation : config.orientation <;> simp only [orientation] at gap ⊢ <;> linarith

end Position

/-- The boxes of a subtree whose span starts at `cross`, the first of them at `main`. -/
def arrangeAt (config : LayoutConfig ℚ) (main cross : ℚ) (tree : NodeTree) : Tree (Placed ℚ) :=
  config.place main cross (config.measure tree)

/-- Where the span of a child starts when that of its parent starts at `cross`. -/
def childCross (config : LayoutConfig ℚ) (cross : ℚ) (tree : NodeTree) (index : Nat) : ℚ :=
  let measured := config.measure tree
  cross + (measured.value.span - config.blockSpan measured.children) / 2 +
    config.offset measured.children index

theorem children_measure (tree : NodeTree) :
    (config.measure tree).children = tree.unfolded.map config.measure := by
  cases tree with
  | node node children =>
      rw [measure, ← measureAll_eq_map, NodeTree.unfolded, Tree.value_node, Tree.children_node]
      cases node.expanded <;> rfl

theorem value_arrangeAt (main cross : ℚ) (tree : NodeTree) :
    (config.arrangeAt main cross tree).value =
      config.position main cross (config.measure tree).value := by
  unfold arrangeAt
  cases config.measure tree with
  | node measured children => rfl

/-- The boxes below a node are those of its children. -/
theorem getElem?_children_arrangeAt (main cross : ℚ) (tree : NodeTree) (index : Nat) :
    (config.arrangeAt main cross tree).children[index]? =
      tree.unfolded[index]?.map
        (config.arrangeAt (config.nextLevel main (config.measure tree).value)
          (config.childCross cross tree index)) := by
  have below : (config.arrangeAt main cross tree).children =
      config.placeAll (config.nextLevel main (config.measure tree).value)
        (cross + ((config.measure tree).value.span -
          config.blockSpan (config.measure tree).children) / 2)
        (config.measure tree).children := by
    unfold arrangeAt
    cases config.measure tree with
    | node measured children => rfl
  rw [below, getElem?_placeAll, children_measure, List.getElem?_map, Option.map_map, childCross,
    children_measure]
  rfl

/-- A way below a node goes on in the boxes of one of its children. -/
theorem get?_arrangeAt_cons {main cross : ℚ} {tree : NodeTree} {index : Nat}
    {address : List Nat} {box : Placed ℚ}
    (found : (config.arrangeAt main cross tree).get? (index :: address) = some box) :
    ∃ child, tree.unfolded[index]? = some child ∧
      (config.arrangeAt (config.nextLevel main (config.measure tree).value)
        (config.childCross cross tree index) child).get? address = some box := by
  rw [Tree.get?_cons, getElem?_children_arrangeAt] at found
  cases next : tree.unfolded[index]? with
  | none => simp [next] at found
  | some child => exact ⟨child, rfl, by simpa [next] using found⟩

section Siblings

variable {tree child : NodeTree} {index : Nat}

/-- A child's span lies in that of its parent. -/
theorem childCross_within (accepted : config.sizes.fault? = none) (cross : ℚ)
    (found : tree.unfolded[index]? = some child) :
    cross ≤ config.childCross cross tree index ∧
      config.childCross cross tree index + (config.measure child).value.span ≤
        cross + (config.measure tree).value.span := by
  have block := (value_measure_fits accepted tree).block_le
  have start := offset_nonneg accepted tree.unfolded index
  have finish := offset_le_block accepted found
  rw [childCross, children_measure]
  rw [children_measure] at block
  constructor <;> linarith

theorem childCross_lt (accepted : config.sizes.fault? = none) (cross : ℚ)
    (found : tree.unfolded[index]? = some child) {later : Nat} (before : index < later) :
    config.childCross cross tree index + (config.measure child).value.span +
      config.siblingGap ≤ config.childCross cross tree later := by
  have apart := offset_lt accepted found before
  rw [childCross, childCross, children_measure]
  linarith

end Siblings

/-- A box that is in a span on the sibling axis and not before a level. -/
structure Within (config : LayoutConfig ℚ) (main cross span : ℚ) (box : Placed ℚ) : Prop where
  level : main ≤ box.levelStart config.orientation
  near : cross ≤ box.siblingStart config.orientation
  far : box.siblingEnd config.orientation ≤ cross + span

theorem arrangeAt_within (accepted : config.sizes.fault? = none) {address : List Nat}
    {main cross : ℚ} {tree : NodeTree} {box : Placed ℚ}
    (found : (config.arrangeAt main cross tree).get? address = some box) :
    config.Within main cross (config.measure tree).value.span box := by
  have fits := value_measure_fits accepted tree
  induction address generalizing main cross tree with
  | nil =>
      rw [Tree.get?_nil, value_arrangeAt, Option.some.injEq] at found
      subst found
      have room := fits.breadth_le
      refine ⟨(levelStart_position ..).ge, ?_, ?_⟩
      · rw [siblingStart_position]
        linarith
      · rw [siblingEnd_position fits]
        linarith
  | cons index address addressIH =>
      obtain ⟨child, next, inside⟩ := get?_arrangeAt_cons found
      have within := addressIH inside (value_measure_fits accepted child)
      have level := lt_nextLevel accepted fits main
      obtain ⟨start, finish⟩ := childCross_within accepted cross next
      exact ⟨level.le.trans within.level, start.trans within.near, within.far.trans finish⟩

/-- The first box of two is clear of the second: it ends before the next level starts if the
second one is below it, and otherwise before the next sibling does. -/
inductive Apart (config : LayoutConfig ℚ) (first second : List Nat × Placed ℚ) : Prop where
  | above (below : first.1 <+: second.1)
      (clear : first.2.levelEnd config.orientation + config.levelGap ≤
        second.2.levelStart config.orientation)
  | beside (aside : ¬ first.1 <+: second.1 ∧ ¬ second.1 <+: first.1)
      (clear : first.2.siblingEnd config.orientation + config.siblingGap ≤
        second.2.siblingStart config.orientation)

theorem Apart.cons {first second : List Nat × Placed ℚ} (apart : config.Apart first second)
    (index : Nat) :
    config.Apart (index :: first.1, first.2) (index :: second.1, second.2) := by
  cases apart with
  | above below clear => exact .above ((List.prefix_cons_inj index).mpr below) clear
  | beside aside clear =>
      refine .beside ?_ clear
      rwa [List.prefix_cons_inj, List.prefix_cons_inj]

theorem arrangeAt_apart (accepted : config.sizes.fault? = none) {first second : List Nat}
    {main cross : ℚ} {tree : NodeTree} {box other : Placed ℚ} (before : first < second)
    (found : (config.arrangeAt main cross tree).get? first = some box)
    (foundOther : (config.arrangeAt main cross tree).get? second = some other) :
    config.Apart (first, box) (second, other) := by
  induction first generalizing second main cross tree with
  | nil =>
      cases second with
      | nil => exact absurd before (List.not_lt_nil [])
      | cons index rest =>
          -- the second way goes on to the next level
          rw [Tree.get?_nil, value_arrangeAt, Option.some.injEq] at found
          subst found
          obtain ⟨child, -, inside⟩ := get?_arrangeAt_cons foundOther
          refine .above List.nil_prefix ?_
          rw [← nextLevel_eq]
          exact (arrangeAt_within accepted inside).level
  | cons index first firstIH =>
      cases second with
      | nil => exact absurd before (List.not_lt_nil _)
      | cons later second =>
          obtain ⟨child, next, inside⟩ := get?_arrangeAt_cons found
          obtain ⟨sibling, nextOther, insideOther⟩ := get?_arrangeAt_cons foundOther
          rcases List.cons_lt_cons_iff.mp before with left | ⟨rfl, deeper⟩
          · have far := (arrangeAt_within accepted inside).far
            have near := (arrangeAt_within accepted insideOther).near
            have gap := childCross_lt accepted cross next left
            refine .beside ?_ (by linarith)
            simp only [List.cons_prefix_cons]
            omega
          · obtain rfl : child = sibling := Option.some.inj (next.symm.trans nextOther)
            exact (firstIH deeper inside insideOther).cons index

/-- The placed boxes belong to the visible nodes, and of any two of them, the one of a node
above ends the space of a level before the other, and those side by side have the space
between siblings between them. -/
theorem boxes_apart (config : LayoutConfig ℚ) (accepted : config.sizes.fault? = none)
    (tree : NodeTree) :
    let boxes := (config.arrange tree).located
    boxes.map Prod.snd = (config.layout tree).nodes ∧
      boxes.map (fun box => (box.1, box.2.node)) =
        tree.located.filter (fun entry => tree.expandedAbove entry.1) ∧
      boxes.Pairwise config.Apart := by
  refine ⟨Tree.located_snd _, located_arrange config tree, ?_⟩
  · refine (Tree.located_sorted _).imp_of_mem fun member memberOther before => ?_
    have origin : config.arrange tree = config.arrangeAt 0 0 tree := by
      simp [arrange, arrangeAt]
    exact arrangeAt_apart accepted before (origin ▸ Tree.get?_of_mem_located _ member)
      (origin ▸ Tree.get?_of_mem_located _ memberOther)

/-- Two siblings to the right of their parent, with a gap that no double is equal to. -/
theorem boxes_apart_of_siblings :
    let config : LayoutConfig ℚ :=
      { sizes :=
          { nodeHeight := 10
            horizontalSpacing := 24
            verticalSpacing := 1 / 3
            charWidth := 8
            nodePadding := 6
            minNodeWidth := 12
            maxNodeWidth := 40 }
        orientation := .horizontal }
    let node (label : String) : Node := { (default : Node) with label, expanded := true }
    let tree : NodeTree := .node (node "and") [.node (node "x") [], .node (node "y") []]
    let boxes := (config.arrange tree).located
    config.sizes.fault? = none ∧
      boxes.map (fun box => (box.1, box.2.x, box.2.y, box.2.width)) =
        [([], 0, 31 / 6, 30), ([0], 54, 0, 14), ([1], 54, 31 / 3, 14)] ∧
      boxes.map Prod.snd = (config.layout tree).nodes ∧
      boxes.map (fun box => (box.1, box.2.node)) =
        tree.located.filter (fun entry => tree.expandedAbove entry.1) ∧
      boxes.Pairwise config.Apart := by
  refine ⟨?accepted, by decide +kernel, boxes_apart _ ?accepted _⟩
  exact Sizes.fault?_eq_none_iff.mpr (by norm_num)

end LayoutConfig

end RuleChart
