import RuleChart.Proofs.Layout.Apart
import RuleChart.Proofs.Layout.Canvas
import RuleChart.Proofs.Tree.Throughout

namespace RuleChart

/-- The middle of a box on the sibling axis. -/
def Placed.siblingMiddle (orientation : Orientation) (box : Placed ℚ) : ℚ :=
  (box.siblingStart orientation + box.siblingEnd orientation) / 2

namespace LayoutConfig

variable {config : LayoutConfig ℚ}

/-- The size of a node's box on the sibling axis. -/
def breadth (config : LayoutConfig ℚ) (node : Node) : ℚ :=
  match config.orientation with
  | .vertical => config.sizes.nodeWidth node.label
  | .horizontal => config.sizes.nodeHeight

/-- The span that is measured for the visible part of a tree. -/
def span (config : LayoutConfig ℚ) (tree : NodeTree) : ℚ := (config.measure tree).value.span

/-- The space that trees take side by side, with a gap between each two. -/
def rowSpan (config : LayoutConfig ℚ) (trees : List NodeTree) : ℚ :=
  (trees.map config.span).sum + config.siblingGap * ((trees.length - 1 : Nat) : ℚ)

theorem blockSpan_measure (trees : List NodeTree) :
    config.blockSpan (trees.map config.measure) = config.rowSpan trees := by
  rw [blockSpan, rowSpan, Scalar.total_eq_sum, List.map_map, List.length_map]
  rfl

theorem breadth_measure (tree : NodeTree) :
    (config.measure tree).value.breadth = config.breadth tree.value := by
  cases tree with
  | node node children =>
      rw [measure]
      rfl

theorem breadth_nonneg (accepted : config.sizes.fault? = none) (node : Node) :
    0 ≤ config.breadth node := by
  have high := (Sizes.fault?_eq_none_iff.mp accepted).1
  have wide := Sizes.nodeWidth_pos accepted node.label
  unfold breadth
  split
  · exact wide.le
  · exact high.le

theorem span_measurePart (accepted : config.sizes.fault? = none) (part : NodeTree)
    (children : List (Tree (Measured ℚ))) :
    (config.measurePart part children).value.span =
      max (config.breadth part.value) (config.blockSpan children) := by
  cases children with
  | nil =>
      have empty : config.blockSpan [] = 0 := by simp [blockSpan, Scalar.total_eq_sum]
      rw [empty, max_eq_left (breadth_nonneg accepted part.value)]
      rfl
  | cons child rest => exact Scalar.greater_eq_max _ _

/-- A span has room for the box of the root, and for the spans of the children that stand below
it. -/
theorem span_eq (accepted : config.sizes.fault? = none) (tree : NodeTree) :
    config.span tree = max (config.breadth tree.value) (config.rowSpan tree.unfolded) := by
  rw [← blockSpan_measure, ← children_measure, span]
  cases tree with
  | node node children =>
      rw [measure]
      exact span_measurePart accepted _ _

section Ends

variable {tree first last : NodeTree}

theorem childCross_eq (cross : ℚ) (tree : NodeTree) (index : Nat) :
    config.childCross cross tree index =
      cross + (config.span tree - config.rowSpan tree.unfolded) / 2 +
        config.offset (tree.unfolded.map config.measure) index := by
  rw [childCross, children_measure, blockSpan_measure, span]

theorem childCross_first (cross : ℚ) (tree : NodeTree) :
    config.childCross cross tree 0 =
      cross + (config.span tree - config.rowSpan tree.unfolded) / 2 := by
  rw [childCross_eq, offset, List.take_zero, List.map_nil, List.sum_nil, add_zero]

theorem childCross_last (cross : ℚ) {index : Nat} (found : tree.unfolded[index]? = some last)
    (final : tree.unfolded.length = index + 1) :
    config.childCross cross tree index + config.span last =
      cross + (config.span tree - config.rowSpan tree.unfolded) / 2 +
        config.rowSpan tree.unfolded := by
  have several : 0 < (tree.unfolded.map config.measure).length := by simp [final]
  have whole := offset_length config several
  rw [List.length_map, final, offset_succ found, blockSpan_measure] at whole
  change _ + (config.span last + config.siblingGap) = _ at whole
  rw [childCross_eq]
  linarith

end Ends

/-- Either a node is as broad as its span, or its children are. -/
theorem span_cases (accepted : config.sizes.fault? = none) (tree : NodeTree) :
    config.span tree = config.breadth tree.value ∨
      (config.span tree = config.rowSpan tree.unfolded ∧ tree.unfolded ≠ []) := by
  have whole := span_eq accepted tree
  rcases le_total (config.rowSpan tree.unfolded) (config.breadth tree.value) with narrow | wide
  · exact .inl (by rw [whole, max_eq_left narrow])
  · by_cases none : tree.unfolded = []
    · have empty : config.rowSpan [] = 0 := by simp [rowSpan]
      rw [none, empty, max_eq_left (breadth_nonneg accepted tree.value)] at whole
      exact .inl whole
    · exact .inr ⟨by rw [whole, max_eq_right wide], none⟩

theorem get?_arrangeAt_of_child {tree child : NodeTree} {index : Nat} (main cross : ℚ)
    (found : tree.unfolded[index]? = some child) (address : List Nat) :
    (config.arrangeAt main cross tree).get? (index :: address) =
      (config.arrangeAt (config.nextLevel main (config.measure tree).value)
        (config.childCross cross tree index) child).get? address := by
  rw [Tree.get?_cons, getElem?_children_arrangeAt, found]
  rfl

theorem child_of_unfolded {tree child : NodeTree} {index : Nat}
    (found : tree.unfolded[index]? = some child) : tree.children[index]? = some child := by
  unfold NodeTree.unfolded at found
  split at found
  · exact found
  · cases found

/-- Some box of a subtree starts where its span starts. -/
theorem exists_siblingStart (accepted : config.sizes.fault? = none) (main cross : ℚ)
    (tree : NodeTree) :
    ∃ address box, (config.arrangeAt main cross tree).get? address = some box ∧
      box.siblingStart config.orientation = cross := by
  induction tree using Tree.children_induction generalizing main cross with
  | step tree childIH =>
      rcases span_cases accepted tree with own | ⟨block, several⟩
      · refine ⟨[], _, Tree.get?_nil _, ?_⟩
        rw [value_arrangeAt, siblingStart_position, breadth_measure, ← span, own]
        ring
      · obtain ⟨first, found⟩ : ∃ first, (NodeTree.unfolded tree)[0]? = some first :=
          ⟨_, List.getElem?_eq_getElem (List.length_pos_iff.mpr several)⟩
        obtain ⟨address, box, inside, start⟩ := childIH first
          (List.mem_of_getElem? (child_of_unfolded found))
          (config.nextLevel main (config.measure tree).value) (config.childCross cross tree 0)
        have listed := (get?_arrangeAt_of_child main cross found address).trans inside
        refine ⟨_, box, listed, ?_⟩
        rw [start, childCross_first, block]
        ring

/-- Some box of a subtree ends where its span ends. -/
theorem exists_siblingEnd (accepted : config.sizes.fault? = none) (main cross : ℚ)
    (tree : NodeTree) :
    ∃ address box, (config.arrangeAt main cross tree).get? address = some box ∧
      box.siblingEnd config.orientation = cross + config.span tree := by
  induction tree using Tree.children_induction generalizing main cross with
  | step tree childIH =>
      rcases span_cases accepted tree with own | ⟨block, several⟩
      · refine ⟨[], _, Tree.get?_nil _, ?_⟩
        rw [value_arrangeAt, siblingEnd_position (value_measure_fits accepted tree),
          breadth_measure, ← span, own]
        ring
      · obtain ⟨index, final⟩ : ∃ index, (NodeTree.unfolded tree).length = index + 1 :=
          Nat.exists_eq_succ_of_ne_zero (mt List.length_eq_zero_iff.mp several)
        obtain ⟨last, found⟩ : ∃ last, (NodeTree.unfolded tree)[index]? = some last :=
          ⟨_, List.getElem?_eq_getElem (by omega)⟩
        obtain ⟨address, box, inside, finish⟩ := childIH last
          (List.mem_of_getElem? (child_of_unfolded found))
          (config.nextLevel main (config.measure tree).value) (config.childCross cross tree index)
        have listed := (get?_arrangeAt_of_child main cross found address).trans inside
        refine ⟨_, box, listed, ?_⟩
        rw [finish, childCross_last cross found final, block]
        ring

/-- On the sibling axis, the first box starts at `start` and the last one ends at `finish`. -/
structure Reaches (config : LayoutConfig ℚ) (boxes : Tree (Placed ℚ)) (start finish : ℚ) :
    Prop where
  least : IsLeast (Placed.siblingStart config.orientation '' {box | box ∈ boxes.preorder}) start
  greatest : IsGreatest (Placed.siblingEnd config.orientation '' {box | box ∈ boxes.preorder})
    finish

theorem within_of_mem (accepted : config.sizes.fault? = none) {main cross : ℚ} {tree : NodeTree}
    {box : Placed ℚ} (member : box ∈ (config.arrangeAt main cross tree).preorder) :
    config.Within main cross (config.span tree) box := by
  obtain ⟨address, found⟩ := Tree.mem_preorder_iff.mp member
  exact arrangeAt_within accepted found

theorem reaches_arrangeAt (accepted : config.sizes.fault? = none) (main cross : ℚ)
    (tree : NodeTree) :
    config.Reaches (config.arrangeAt main cross tree) cross (cross + config.span tree) := by
  constructor
  · obtain ⟨address, box, found, start⟩ := exists_siblingStart accepted main cross tree
    refine ⟨⟨box, Tree.mem_preorder_iff.mpr ⟨address, found⟩, start⟩, ?_⟩
    rintro _ ⟨other, member, rfl⟩
    exact (within_of_mem accepted member).near
  · obtain ⟨address, box, found, finish⟩ := exists_siblingEnd accepted main cross tree
    refine ⟨⟨box, Tree.mem_preorder_iff.mpr ⟨address, found⟩, finish⟩, ?_⟩
    rintro _ ⟨other, member, rfl⟩
    exact (within_of_mem accepted member).far

/-- The subtree at an address is placed in the span from `start` to `finish`, and its boxes reach
both ends of it. -/
def SpansAt (config : LayoutConfig ℚ) (tree : NodeTree) (address : List Nat) (start finish : ℚ) :
    Prop :=
  ∃ part main, tree.at? address = some part ∧ finish = start + config.span part ∧
    (config.arrange tree).at? address = some (config.arrangeAt main start part) ∧
    config.Reaches (config.arrangeAt main start part) start finish

theorem arrange_eq (tree : NodeTree) : config.arrange tree = config.arrangeAt 0 0 tree := by
  simp [arrange, arrangeAt]

/-- The visible part of a subtree is placed somewhere as if it were a tree of its own. -/
theorem at?_arrangeAt (config : LayoutConfig ℚ) {address : List Nat} (main cross : ℚ)
    {tree part : NodeTree} (found : tree.at? address = some part)
    (visible : tree.expandedAbove address = true) :
    ∃ level start, (config.arrangeAt main cross tree).at? address =
      some (config.arrangeAt level start part) := by
  induction address generalizing main cross tree with
  | nil =>
      obtain rfl : tree = part := Option.some.inj found
      exact ⟨main, cross, rfl⟩
  | cons index address addressIH =>
      cases tree with
      | node node children =>
          rw [Tree.at?, Tree.children_node] at found
          obtain ⟨child, listed, found⟩ := Option.bind_eq_some_iff.mp found
          rw [NodeTree.expandedAbove_cons listed, Bool.and_eq_true] at visible
          have next : NodeTree.unfolded (.node node children) = children := if_pos visible.1
          rw [Tree.at?, getElem?_children_arrangeAt, next, listed]
          exact addressIH _ _ found visible.2

theorem spansAt_child (accepted : config.sizes.fault? = none) {address : List Nat} {index : Nat}
    {main start : ℚ} {tree part child : NodeTree} (found : tree.at? address = some part)
    (placed : (config.arrange tree).at? address = some (config.arrangeAt main start part))
    (next : part.unfolded[index]? = some child) :
    config.SpansAt tree (address ++ [index]) (config.childCross start part index)
      (config.childCross start part index + config.span child) := by
  refine ⟨child, config.nextLevel main (config.measure part).value, ?_, rfl, ?_,
    reaches_arrangeAt accepted _ _ child⟩
  · rw [Tree.at?_concat, found]
    exact child_of_unfolded next
  · rw [Tree.at?_concat, placed, Option.bind_some, getElem?_children_arrangeAt, next]
    rfl

/-- A box stands in the middle of its span. -/
theorem siblingMiddle_position (accepted : config.sizes.fault? = none) (main cross : ℚ)
    (tree : NodeTree) :
    (config.position main cross (config.measure tree).value).siblingMiddle config.orientation =
      cross + config.span tree / 2 := by
  have fits := value_measure_fits accepted tree
  rw [Placed.siblingMiddle, siblingStart_position, siblingEnd_position fits, span]
  ring

/-- The middle of a box is the middle between the start of its first child's span and the end of its
last child's. -/
theorem box_centered (accepted : config.sizes.fault? = none) {address : List Nat}
    {tree part : NodeTree} (found : tree.at? address = some part)
    (visible : tree.expandedAbove address = true) (expanded : part.value.expanded = true)
    (several : part.children ≠ []) :
    ∃ box start firstEnd lastStart finish,
      (config.arrange tree).get? address = some box ∧
      config.SpansAt tree (address ++ [0]) start firstEnd ∧
      config.SpansAt tree (address ++ [part.children.length - 1]) lastStart finish ∧
      box.siblingMiddle config.orientation = (start + finish) / 2 := by
  have below : part.unfolded = part.children := if_pos expanded
  have count := List.length_pos_iff.mpr several
  obtain ⟨first, next⟩ : ∃ first, part.unfolded[0]? = some first :=
    ⟨_, List.getElem?_eq_getElem (below ▸ count)⟩
  obtain ⟨last, final⟩ : ∃ last, part.unfolded[part.children.length - 1]? = some last :=
    ⟨_, List.getElem?_eq_getElem (by rw [below]; omega)⟩
  obtain ⟨main, start, placed⟩ := at?_arrangeAt config 0 0 found visible
  rw [← arrange_eq] at placed
  refine ⟨config.position main start (config.measure part).value, _, _, _, _, ?_,
    spansAt_child accepted found placed next, spansAt_child accepted found placed final, ?_⟩
  · rw [Tree.get?, placed, Option.map_some, value_arrangeAt]
  · rw [siblingMiddle_position accepted, childCross_first,
      childCross_last start final (by rw [below]; omega)]
    ring

/-- No box is left of the origin or above it, and the two axes are touched. -/
theorem boxes_from_origin [Extremes ℚ] (accepted : config.sizes.fault? = none) (tree : NodeTree) :
    (∀ box ∈ (config.layout tree).nodes, 0 ≤ box.x ∧ 0 ≤ box.y) ∧
      (∃ box ∈ (config.layout tree).nodes, box.x = 0) ∧
      ∃ box ∈ (config.layout tree).nodes, box.y = 0 := by
  have nodes : (config.layout tree).nodes = (config.arrangeAt 0 0 tree).preorder := by
    rw [← arrange_eq]
    rfl
  rw [nodes]
  have sibling := (reaches_arrangeAt accepted 0 0 tree).least.1
  have level : ∃ box ∈ (config.arrangeAt 0 0 tree).preorder,
      box.levelStart config.orientation = 0 := by
    refine ⟨_, Tree.mem_preorder_iff.mpr ⟨[], Tree.get?_nil _⟩, ?_⟩
    rw [value_arrangeAt, levelStart_position]
  cases orientation : config.orientation with
  | vertical =>
      rw [orientation] at level sibling
      refine ⟨fun box member => ?_, sibling, level⟩
      obtain ⟨down, right, -⟩ := within_of_mem accepted member
      rw [orientation] at down right
      exact ⟨right, down⟩
  | horizontal =>
      rw [orientation] at level sibling
      refine ⟨fun box member => ?_, level, sibling⟩
      obtain ⟨right, down, -⟩ := within_of_mem accepted member
      rw [orientation] at down right
      exact ⟨right, down⟩

theorem reaches_arrange (accepted : config.sizes.fault? = none) (tree : NodeTree) :
    config.Reaches (config.arrange tree) 0 (config.span tree) := by
  have reach := reaches_arrangeAt accepted 0 0 tree
  rwa [zero_add, ← arrange_eq] at reach

theorem siblingSize_eq_span [Extremes ℚ] [LawfulExtremes ℚ] (accepted : config.sizes.fault? = none)
    (tree : NodeTree) :
    (config.layout tree).siblingSize config.orientation = config.span tree + config.siblingGap := by
  have last := (isGreatest_greatestOf _ _).unique (reaches_arrange accepted tree).greatest
  rw [siblingSize_layout, last]

/-- No box is left of the origin or above it, and boxes stand on both axes.  Along the sibling axis
the last box ends where the span of the root does, which is what the root and its children need, so
the canvas is as large as this span and the margin.  Every box with others below it stands in the
middle of their spans. -/
theorem canvas_tight [Extremes ℚ] [LawfulExtremes ℚ] (config : LayoutConfig ℚ)
    (accepted : config.sizes.fault? = none) (tree : NodeTree) :
    let layout := config.layout tree
    ((∀ box ∈ layout.nodes, 0 ≤ box.x ∧ 0 ≤ box.y) ∧ (∃ box ∈ layout.nodes, box.x = 0) ∧
        ∃ box ∈ layout.nodes, box.y = 0) ∧
      config.span tree = max (config.breadth tree.value) (config.rowSpan tree.unfolded) ∧
      IsGreatest (Placed.siblingEnd config.orientation '' {box | box ∈ layout.nodes})
        (config.span tree) ∧
      layout.siblingSize config.orientation = config.span tree + config.siblingGap ∧
      ∀ address part, tree.at? address = some part → tree.expandedAbove address = true →
        part.value.expanded = true → part.children ≠ [] →
        ∃ box start firstEnd lastStart finish,
          (config.arrange tree).get? address = some box ∧
          config.SpansAt tree (address ++ [0]) start firstEnd ∧
          config.SpansAt tree (address ++ [part.children.length - 1]) lastStart finish ∧
          box.siblingMiddle config.orientation = (start + finish) / 2 := by
  exact ⟨boxes_from_origin accepted tree, span_eq accepted tree,
    (reaches_arrange accepted tree).greatest, siblingSize_eq_span accepted tree,
    fun address part => box_centered accepted⟩

/-- A node that is narrower than the row below it, and in this row one that is wider than its own
child. -/
theorem canvas_tight_of_wide_child :
    let config : LayoutConfig ℚ :=
      { sizes :=
          { nodeHeight := 10
            horizontalSpacing := 5
            verticalSpacing := 7
            charWidth := 1
            nodePadding := 0
            minNodeWidth := 1
            maxNodeWidth := 100 }
        orientation := .vertical }
    let node (label : String) : Node := { (default : Node) with label, expanded := true }
    let wide : NodeTree := .node (node "wide child") [.node (node "b") []]
    let tree : NodeTree := .node (node "a") [wide, .node (node "c") []]
    let layout := config.layout tree
    config.sizes.fault? = none ∧
      layout.nodes.map (fun box => (box.x, box.y, box.width)) =
        [(15 / 2, 0, 1), (0, 17, 10), (9 / 2, 34, 1), (15, 17, 1)] ∧
      config.span tree = 16 ∧
      IsGreatest (Placed.siblingEnd .vertical '' {box | box ∈ layout.nodes}) 16 ∧
      layout.width = 16 + 5 ∧
      ∃ box start firstEnd lastStart finish,
        (config.arrange tree).get? [] = some box ∧ config.SpansAt tree [0] start firstEnd ∧
          config.SpansAt tree [1] lastStart finish ∧
          box.siblingMiddle .vertical = (start + finish) / 2 := by
  intro config node wide tree layout
  have accepted : config.sizes.fault? = none := Sizes.fault?_eq_none_iff.mpr (by norm_num [config])
  have span : config.span tree = 16 := by decide +kernel
  obtain ⟨-, -, greatest, size, centered⟩ := canvas_tight config accepted tree
  rw [span] at greatest size
  exact ⟨accepted, by decide +kernel, span, greatest, size,
    centered [] tree rfl rfl rfl (List.cons_ne_nil _ _)⟩

end LayoutConfig

end RuleChart
