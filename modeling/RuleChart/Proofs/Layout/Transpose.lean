import RuleChart.Proofs.Layout.Shown

namespace RuleChart

variable {K : Type}

def Point.transpose (point : Point K) : Point K := ⟨point.y, point.x⟩

def Curve.transpose (curve : Curve K) : Curve K :=
  { start := curve.start.transpose
    startControl := curve.startControl.transpose
    endControl := curve.endControl.transpose
    finish := curve.finish.transpose }

def Edge.transpose (edge : Edge K) : Edge K := { edge with curve := edge.curve.transpose }

def Placed.transpose (box : Placed K) : Placed K :=
  { part := box.part, x := box.y, y := box.x, width := box.height, height := box.width }

def Layout.transpose (layout : Layout K) : Layout K :=
  { nodes := layout.nodes.map Placed.transpose
    edges := layout.edges.map Edge.transpose
    width := layout.height
    height := layout.width }

namespace LayoutConfig

/-- The first grows to the right and the second downwards, with the same space between siblings
and between levels. -/
structure Turned (across down : LayoutConfig K) : Prop where
  horizontal : across.orientation = .horizontal
  vertical : down.orientation = .vertical
  siblings : across.sizes.verticalSpacing = down.sizes.horizontalSpacing
  levels : across.sizes.horizontalSpacing = down.sizes.verticalSpacing

/-- Each of the two configurations makes the node as wide as the other one makes all boxes high. -/
structure Exchanged [Add K] [Mul K] [LT K] [DecidableLT K] [NatCast K]
    (across down : LayoutConfig K) (node : Node) : Prop where
  across_width : across.sizes.nodeWidth node.label = down.sizes.nodeHeight
  down_width : down.sizes.nodeWidth node.label = across.sizes.nodeHeight

/-- The same node with another width. -/
def widened (width : K) (measured : Measured K) : Measured K := { measured with width }

variable {across down : LayoutConfig K}

theorem Turned.siblingGap_eq (turned : Turned across down) :
    across.siblingGap = down.siblingGap := by
  simp only [siblingGap, turned.horizontal, turned.vertical, turned.siblings]

theorem Turned.blockSpan_eq [Add K] [Mul K] [NatCast K] (turned : Turned across down)
    (width : K) (trees : List (Tree (Measured K))) :
    across.blockSpan (trees.map (Tree.map (widened width))) = down.blockSpan trees := by
  simp [blockSpan, turned.siblingGap_eq, Function.comp_def, widened]

section Measure

variable [Add K] [Mul K] [LT K] [DecidableLT K] [NatCast K]

theorem Turned.measurePart_eq (turned : Turned across down) {part : NodeTree}
    (exchanged : Exchanged across down part.value) (children : List (Tree (Measured K))) :
    across.measurePart part (children.map (Tree.map (widened down.sizes.nodeHeight))) =
      (down.measurePart part children).map (widened down.sizes.nodeHeight) := by
  have block := turned.blockSpan_eq down.sizes.nodeHeight children
  cases children with
  | nil =>
      simp [measurePart, turned.horizontal, turned.vertical, Tree.map, Tree.mapAll, widened,
        exchanged.across_width, exchanged.down_width]
  | cons child rest =>
      simp only [List.map_cons] at block
      simp [measurePart, turned.horizontal, turned.vertical, Tree.map, Tree.mapAll_eq_map, widened,
        exchanged.across_width, exchanged.down_width, block]

mutual

theorem Turned.measure_eq (turned : Turned across down) (tree : NodeTree)
    (exchanged : ∀ node ∈ tree.visible, Exchanged across down node) :
    across.measure tree = (down.measure tree).map (widened down.sizes.nodeHeight) := by
  cases tree with
  | node node children =>
      have own : Exchanged across down (Tree.node node children).value :=
        exchanged node List.mem_cons_self
      rw [measure, measure, ← turned.measurePart_eq own]
      cases expanded : node.expanded with
      | true =>
          have below := turned.measureAll_eq children fun other member =>
            exchanged other (List.mem_cons_of_mem _ (by rwa [expanded, if_pos rfl]))
          rw [if_pos rfl, if_pos rfl, below, Tree.mapAll_eq_map]
      | false => rfl

theorem Turned.measureAll_eq (turned : Turned across down) (trees : List NodeTree)
    (exchanged : ∀ node ∈ NodeTree.visibleAll trees, Exchanged across down node) :
    across.measureAll trees =
      Tree.mapAll (widened down.sizes.nodeHeight) (down.measureAll trees) := by
  cases trees with
  | nil => rfl
  | cons tree rest =>
      have first := turned.measure_eq tree
        fun other member => exchanged other (List.mem_append_left _ member)
      have later := turned.measureAll_eq rest
        fun other member => exchanged other (List.mem_append_right _ member)
      rw [measureAll, measureAll, Tree.mapAll, first, later]

end

mutual

theorem widths_measure (config : LayoutConfig K) (tree : NodeTree) :
    (config.measure tree).preorder.map Measured.width =
      tree.visible.map (fun node => config.sizes.nodeWidth node.label) := by
  cases tree with
  | node node children =>
      rw [measure, NodeTree.visible]
      cases node.expanded with
      | true => exact congrArg _ (widths_measureAll config children)
      | false => rfl

theorem widths_measureAll (config : LayoutConfig K) (trees : List NodeTree) :
    (Tree.preorderAll (config.measureAll trees)).map Measured.width =
      (NodeTree.visibleAll trees).map (fun node => config.sizes.nodeWidth node.label) := by
  cases trees with
  | nil => rfl
  | cons tree rest =>
      simp only [measureAll, Tree.preorderAll, NodeTree.visibleAll, List.map_append,
        widths_measure config tree, widths_measureAll config rest]

end

end Measure

theorem Turned.nextLevel_eq [Add K] (turned : Turned across down) (main : K)
    (measured : Measured K) :
    across.nextLevel main (widened down.sizes.nodeHeight measured) =
      down.nextLevel main measured := by
  simp [nextLevel, turned.horizontal, turned.vertical, turned.levels, widened]

section Place

variable [Add K] [Sub K] [Div K] [NatCast K]

theorem Turned.position_eq (turned : Turned across down) (main cross : K) {measured : Measured K}
    (wide : measured.width = across.sizes.nodeHeight) :
    across.position main cross (widened down.sizes.nodeHeight measured) =
      (down.position main cross measured).transpose := by
  simp [position, turned.horizontal, turned.vertical, Placed.transpose, widened, wide]

variable [Mul K]

mutual

theorem Turned.place_eq (turned : Turned across down) (main cross : K)
    (tree : Tree (Measured K))
    (wide : ∀ measured ∈ tree.preorder, measured.width = across.sizes.nodeHeight) :
    across.place main cross (tree.map (widened down.sizes.nodeHeight)) =
      (down.place main cross tree).map Placed.transpose := by
  cases tree with
  | node measured children =>
      have own := turned.position_eq main cross (wide measured List.mem_cons_self)
      have block := turned.blockSpan_eq down.sizes.nodeHeight children
      have below := turned.placeAll_eq (down.nextLevel main measured)
        (cross + (measured.span - down.blockSpan children) / ((2 : Nat) : K)) children
        fun other member => wide other (List.mem_cons_of_mem _ member)
      simp only [Tree.map, place, own, turned.nextLevel_eq, Tree.mapAll_eq_map, block] at below ⊢
      rw [← below]
      rfl

theorem Turned.placeAll_eq (turned : Turned across down) (main cross : K)
    (trees : List (Tree (Measured K)))
    (wide : ∀ measured ∈ Tree.preorderAll trees, measured.width = across.sizes.nodeHeight) :
    across.placeAll main cross (Tree.mapAll (widened down.sizes.nodeHeight) trees) =
      Tree.mapAll Placed.transpose (down.placeAll main cross trees) := by
  cases trees with
  | nil => rfl
  | cons tree rest =>
      have first := turned.place_eq main cross tree
        fun other member => wide other (List.mem_append_left _ member)
      have later := turned.placeAll_eq main (cross + (tree.value.span + down.siblingGap)) rest
        fun other member => wide other (List.mem_append_right _ member)
      simp only [Tree.mapAll, placeAll, first, Tree.value_map, turned.siblingGap_eq, ← later]
      rfl

end

end Place

section Join

variable [Add K] [Div K] [NatCast K]

theorem Turned.curve_eq (turned : Turned across down) {parent child : Placed K}
    (height : parent.height = down.sizes.nodeHeight)
    (wide : parent.width = across.sizes.nodeHeight)
    (childWide : child.width = across.sizes.nodeHeight) :
    across.curve parent.transpose child.transpose = (down.curve parent child).transpose := by
  simp [curve, turned.horizontal, turned.vertical, Placed.transpose, Curve.transpose,
    Point.transpose, height, wide, childWide]

theorem Turned.edge_eq (turned : Turned across down) {parent child : Placed K}
    (height : parent.height = down.sizes.nodeHeight)
    (wide : parent.width = across.sizes.nodeHeight)
    (childWide : child.width = across.sizes.nodeHeight) :
    across.edge parent.transpose child.transpose = (down.edge parent child).transpose := by
  rw [edge, turned.curve_eq height wide childWide]
  rfl

theorem Turned.edges_eq (turned : Turned across down) (tree : Tree (Placed K))
    (high : ∀ box ∈ tree.preorder, box.height = down.sizes.nodeHeight)
    (wide : ∀ box ∈ tree.preorder, box.width = across.sizes.nodeHeight) :
    across.edges (tree.map Placed.transpose) = (down.edges tree).map Edge.transpose := by
  rw [edges_eq_pairs, edges_eq_pairs, Tree.pairs_map, List.map_map, List.map_map]
  refine List.map_congr_left fun pair member => ?_
  obtain ⟨upper, lower⟩ := Tree.mem_preorder_of_mem_pairs tree member
  exact turned.edge_eq (high _ upper) (wide _ upper) (wide _ lower)

end Join

variable [Add K] [Sub K] [Mul K] [Div K] [LT K] [DecidableLT K] [NatCast K]

theorem Turned.arrange_eq (turned : Turned across down) (tree : NodeTree)
    (exchanged : ∀ node ∈ tree.visible, Exchanged across down node) :
    across.arrange tree = (down.arrange tree).map Placed.transpose := by
  rw [arrange, turned.measure_eq tree exchanged]
  refine turned.place_eq _ _ _ fun measured member => ?_
  have width := List.mem_map_of_mem (f := Measured.width) member
  rw [widths_measure] at width
  obtain ⟨node, visible, same⟩ := List.mem_map.mp width
  exact same.symm.trans (exchanged node visible).down_width

/-- If every visible node is as wide in one layout as it is high in the other, then the layout to
the right has each box, each curve and the canvas of the layout downwards with the two coordinates
exchanged, and the same nodes and edges in the same order. -/
theorem layout_transpose [Extremes K] (turned : Turned across down) (tree : NodeTree)
    (exchanged : ∀ node ∈ tree.visible, Exchanged across down node) :
    across.layout tree = (down.layout tree).transpose := by
  have sized (box : Placed K) (member : box ∈ (down.arrange tree).preorder) :
      box.height = down.sizes.nodeHeight ∧ box.width = across.sizes.nodeHeight := by
    have own := sized_of_mem_place down _ _ tree member
    have visible : box.node ∈ tree.visible := by
      rw [← nodes_arrange down tree]
      exact List.mem_map_of_mem member
    exact ⟨own.height, own.width.trans (exchanged box.node visible).down_width⟩
  have edges := turned.edges_eq (down.arrange tree) (fun box member => (sized box member).1)
    fun box member => (sized box member).2
  simp only [layout, Layout.transpose, turned.arrange_eq tree exchanged, edges, Tree.preorder_map,
    turned.siblings, turned.levels]
  cases down.arrange tree with
  | node box children =>
      simp only [Tree.map, Tree.value_node, Tree.children_node, Tree.preorderAll_mapAll,
        List.map_map]
      rfl

/-- Doubles, where rounding moves the root away from its middle child.  One configuration takes its
greatest width for every label and the other its least; the child of a collapsed node may have any
label. -/
theorem layout_transpose_of_doubles :
    let across : LayoutConfig Float :=
      { sizes :=
          { nodeHeight := 44
            horizontalSpacing := 24
            verticalSpacing := 0.1
            charWidth := 8
            nodePadding := 60
            minNodeWidth := 60
            maxNodeWidth := 60 }
        orientation := .horizontal }
    let down : LayoutConfig Float :=
      { sizes :=
          { nodeHeight := 60
            horizontalSpacing := 0.1
            verticalSpacing := 24
            charWidth := 0
            nodePadding := 0.3
            minNodeWidth := 44
            maxNodeWidth := 400 }
        orientation := .vertical }
    let node (label : String) (expanded : Bool) : Node :=
      { (default : Node) with label, expanded }
    let hidden : NodeTree := .node (node "hidden" true) []
    let tree : NodeTree :=
      .node (node "and" true)
        [.node (node "x" true) [], .node (node "or" false) [hidden], .node (node "y" true) []]
    Turned across down ∧ (∀ node ∈ tree.visible, Exchanged across down node) ∧
      across.layout tree = (down.layout tree).transpose ∧
      (across.layout tree).nodes.map (fun box => (box.x, box.y)) =
        [(0, 44.099999999999994), (84, 0), (84, 44.1), (84, 88.2)] := by
  intro across down node hidden tree
  have turned : Turned across down := ⟨rfl, rfl, rfl, rfl⟩
  have widths : ∀ node ∈ tree.visible,
      across.sizes.nodeWidth node.label = 60 ∧ down.sizes.nodeWidth node.label = 44 := by
    decide +kernel
  have exchanged : ∀ node ∈ tree.visible, Exchanged across down node :=
    fun node member => ⟨(widths node member).1, (widths node member).2⟩
  exact ⟨turned, exchanged, layout_transpose turned tree exchanged, by decide +kernel⟩

end LayoutConfig

end RuleChart
