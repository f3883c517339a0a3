import RuleChart.Proofs.Layout.Shown
import RuleChart.Proofs.Tree.Annotation

namespace RuleChart

/-! A layout depends on the skeleton of what is visible and on nothing else.

The skeleton has the ids of the visible nodes and the lengths of their labels.  A plain tree can be
made of it, with nodes that hold nothing else, and every tree is drawn like the plain tree of its
skeleton.  So trees with one skeleton are drawn alike, whatever else they hold.
-/

namespace NodeTree

mutual

theorem shown_map {f : Node → Node} (keeps : ∀ node, (f node).expanded = node.expanded)
    (tree : NodeTree) : shown (tree.map f) = (shown tree).map f := by
  cases tree with
  | node node children =>
      simp only [Tree.map, shown, keeps]
      cases node.expanded with
      | true => rw [if_pos rfl, if_pos rfl, shownAll_mapAll keeps children]
      | false => rfl

theorem shownAll_mapAll {f : Node → Node} (keeps : ∀ node, (f node).expanded = node.expanded)
    (trees : List NodeTree) : shownAll (Tree.mapAll f trees) = Tree.mapAll f (shownAll trees) := by
  cases trees with
  | nil => rfl
  | cons tree rest =>
      simp only [Tree.mapAll, shownAll, shown_map keeps tree, shownAll_mapAll keeps rest]

end

/-- The ids of the visible nodes and the lengths of their labels. -/
def skeleton (tree : NodeTree) : Tree (String × Nat) :=
  (shown tree).map (fun node => (node.id, node.label.length))

theorem skeleton_map {f : Node → Node} (keeps : ∀ node, (f node).expanded = node.expanded)
    (same : ∀ node, (f node).id = node.id ∧ (f node).label.length = node.label.length)
    (tree : NodeTree) : skeleton (tree.map f) = skeleton tree := by
  simp only [skeleton, shown_map keeps, Tree.map_map, (same _).1, (same _).2]

end NodeTree

/-- A node that holds an id and a label of a given length only. -/
def Node.plain (entry : String × Nat) : Node :=
  { (default : Node) with
    id := entry.1
    label := String.ofList (List.replicate entry.2 ' ')
    expanded := true }

variable {K : Type}

/-- A part of a tree of which nothing is left but the id of its node. -/
def NodeTree.named (part : NodeTree) : NodeTree :=
  .node { (default : Node) with id := part.value.id } []

def Measured.named (measured : Measured K) : Measured K :=
  { measured with part := measured.part.named }

def Placed.named (placed : Placed K) : Placed K := { placed with part := placed.part.named }

/-- What is seen of a placed node. -/
structure Outline (K : Type) where
  id : String
  x : K
  y : K
  width : K
  height : K

def Placed.outline (placed : Placed K) : Outline K :=
  { id := placed.node.id
    x := placed.x
    y := placed.y
    width := placed.width
    height := placed.height }

/-- Two layouts with the same boxes, edges and canvas. -/
structure Layout.LooksLike (layout other : Layout K) : Prop where
  boxes : layout.nodes.map Placed.outline = other.nodes.map Placed.outline
  edges : layout.edges = other.edges
  width : layout.width = other.width
  height : layout.height = other.height

namespace Layout

variable {layout other third : Layout K}

theorem LooksLike.symm (alike : layout.LooksLike other) : other.LooksLike layout :=
  ⟨alike.boxes.symm, alike.edges.symm, alike.width.symm, alike.height.symm⟩

theorem LooksLike.trans (first : layout.LooksLike other) (second : other.LooksLike third) :
    layout.LooksLike third :=
  ⟨first.boxes.trans second.boxes, first.edges.trans second.edges,
    first.width.trans second.width, first.height.trans second.height⟩

end Layout

namespace LayoutConfig

open NodeTree (shown shownAll)

variable {f : Node → Node}

theorem blockSpan_named [Add K] [Mul K] [NatCast K] (config : LayoutConfig K)
    (trees : List (Tree (Measured K))) :
    config.blockSpan (trees.map (Tree.map Measured.named)) = config.blockSpan trees := by
  simp [blockSpan, Function.comp_def, Measured.named]

section Measure

variable [Add K] [Mul K] [LT K] [DecidableLT K] [NatCast K]

/-- A node with the same id and a label as long is measured alike above children that are. -/
theorem measurePart_named (config : LayoutConfig K) {part other : NodeTree}
    (id : other.value.id = part.value.id)
    (long : other.value.label.length = part.value.label.length)
    {children others : List (Tree (Measured K))}
    (below : others.map (Tree.map Measured.named) = children.map (Tree.map Measured.named)) :
    (config.measurePart other others).map Measured.named =
      (config.measurePart part children).map Measured.named := by
  have count : others.length = children.length := by simpa using congrArg List.length below
  have block : config.blockSpan others = config.blockSpan children := by
    rw [← blockSpan_named, below, blockSpan_named]
  have wide : config.sizes.nodeWidth other.value.label =
      config.sizes.nodeWidth part.value.label := by
    rw [Sizes.nodeWidth, Sizes.nodeWidth, long]
  match others, children with
  | [], [] => simp [measurePart, Tree.map, Tree.mapAll, Measured.named, NodeTree.named, wide, id]
  | _ :: _, _ :: _ =>
      simp only [measurePart, Tree.map, Tree.mapAll_eq_map, below, Measured.named, NodeTree.named,
        wide, id, block]

mutual

/-- A tree is measured like its visible part, with any labels that are as long. -/
theorem measure_named (config : LayoutConfig K) (unfolds : ∀ node, (f node).expanded = true)
    (keeps : ∀ node, (f node).id = node.id)
    (long : ∀ node, (f node).label.length = node.label.length) (tree : NodeTree) :
    (config.measure ((shown tree).map f)).map Measured.named =
      (config.measure tree).map Measured.named := by
  cases tree with
  | node node children =>
      rw [shown, Tree.map, measure, measure, unfolds, if_pos rfl]
      refine measurePart_named config ?id ?long ?below
      case id => exact keeps node
      case long => exact long node
      case below =>
        cases node.expanded with
        | true =>
            rw [if_pos rfl, if_pos rfl]
            exact measureAll_named config unfolds keeps long children
        | false => rfl

theorem measureAll_named (config : LayoutConfig K) (unfolds : ∀ node, (f node).expanded = true)
    (keeps : ∀ node, (f node).id = node.id)
    (long : ∀ node, (f node).label.length = node.label.length) (trees : List NodeTree) :
    (config.measureAll (Tree.mapAll f (shownAll trees))).map (Tree.map Measured.named) =
      (config.measureAll trees).map (Tree.map Measured.named) := by
  cases trees with
  | nil => rfl
  | cons tree rest =>
      simp only [shownAll, Tree.mapAll, measureAll, List.map_cons,
        measure_named config unfolds keeps long tree,
        measureAll_named config unfolds keeps long rest]

end

end Measure

section Place

variable [Add K] [Sub K] [Mul K] [Div K] [NatCast K]

mutual

theorem place_named (config : LayoutConfig K) (main cross : K) (tree : Tree (Measured K)) :
    config.place main cross (tree.map Measured.named) =
      (config.place main cross tree).map Placed.named := by
  cases tree with
  | node measured children =>
      have block := config.blockSpan_named children
      have below := placeAll_named config (config.nextLevel main measured)
        (cross + (measured.span - config.blockSpan children) / ((2 : Nat) : K)) children
      simp only [Tree.map, place, Tree.mapAll_eq_map, block] at below ⊢
      rw [← below]
      rfl

theorem placeAll_named (config : LayoutConfig K) (main cross : K)
    (trees : List (Tree (Measured K))) :
    config.placeAll main cross (Tree.mapAll Measured.named trees) =
      Tree.mapAll Placed.named (config.placeAll main cross trees) := by
  cases trees with
  | nil => rfl
  | cons tree rest =>
      have first := place_named config main cross tree
      have later := placeAll_named config main (cross + (tree.value.span + config.siblingGap))
        rest
      simp only [Tree.mapAll, placeAll, first, Tree.value_map, ← later]
      rfl

end

theorem arrange_named [LT K] [DecidableLT K] (config : LayoutConfig K)
    (unfolds : ∀ node, (f node).expanded = true) (keeps : ∀ node, (f node).id = node.id)
    (long : ∀ node, (f node).label.length = node.label.length) (tree : NodeTree) :
    (config.arrange ((shown tree).map f)).map Placed.named =
      (config.arrange tree).map Placed.named := by
  rw [arrange, arrange, ← place_named, ← place_named, config.measure_named unfolds keeps long]

end Place

theorem edges_named [Add K] [Div K] [NatCast K] (config : LayoutConfig K)
    (tree : Tree (Placed K)) : config.edges (tree.map Placed.named) = config.edges tree := by
  rw [edges_eq_pairs, edges_eq_pairs, Tree.pairs_map, List.map_map]
  rfl

variable [Add K] [Sub K] [Mul K] [Div K] [LT K] [DecidableLT K] [NatCast K] [Extremes K]

/-- Where nodes with the same ids have the same boxes, the layouts look alike. -/
theorem looksLike_of_named (config : LayoutConfig K) {tree other : NodeTree}
    (same : (config.arrange other).map Placed.named = (config.arrange tree).map Placed.named) :
    (config.layout other).LooksLike (config.layout tree) := by
  have boxes := congrArg (fun placed => placed.preorder.map Placed.outline) same
  have edges := congrArg config.edges same
  have root := congrArg Tree.value same
  have others := congrArg (fun placed => Tree.preorderAll placed.children) same
  simp only [Tree.preorder_map, List.map_map, Tree.value_map] at boxes root
  rw [edges_named, edges_named] at edges
  simp only [Tree.children_map, ← Tree.mapAll_eq_map, Tree.preorderAll_mapAll] at others
  -- the ends of a box do not depend on the part of the tree that it shows
  have ends (far : Placed K → K) (blind : ∀ box, far box.named = far box) :
      far (config.arrange other).value = far (config.arrange tree).value ∧
        (Tree.preorderAll (config.arrange other).children).map far =
          (Tree.preorderAll (config.arrange tree).children).map far := by
    have first := congrArg far root
    have later := congrArg (List.map far) others
    simp only [blind, List.map_map, Function.comp_def] at first later
    exact ⟨first, later⟩
  obtain ⟨right, rights⟩ := ends (fun box => box.x + box.width) fun _ => rfl
  obtain ⟨bottom, bottoms⟩ := ends (fun box => box.y + box.height) fun _ => rfl
  refine ⟨boxes, edges, ?_, ?_⟩
  · simp only [layout, right, rights]
  · simp only [layout, bottom, bottoms]

/-- A tree is drawn like the plain tree of its skeleton. -/
theorem layout_plain (config : LayoutConfig K) (tree : NodeTree) :
    (config.layout (tree.skeleton.map Node.plain)).LooksLike (config.layout tree) := by
  let plain (node : Node) : Node := Node.plain (node.id, node.label.length)
  have arranged := config.arrange_named (f := plain) (fun _ => rfl) (fun _ => rfl)
    (fun node => by simp [plain, Node.plain]) tree
  rw [NodeTree.skeleton, Tree.map_map]
  exact config.looksLike_of_named arranged

theorem looksLike_of_skeleton (config : LayoutConfig K) {tree other : NodeTree}
    (same : tree.skeleton = other.skeleton) :
    (config.layout tree).LooksLike (config.layout other) := by
  have plain := config.layout_plain tree
  rw [same] at plain
  exact plain.symm.trans (config.layout_plain other)

/-- Trees with the same ids and label lengths at all visible places have the same boxes, edges and
canvas, whatever else their nodes hold, whatever is hidden and however it is hidden.  The results of
an evaluator are drawn nowhere. -/
theorem layout_of_skeleton (config : LayoutConfig K) {tree other : NodeTree}
    (same : tree.skeleton = other.skeleton) :
    (config.layout tree).LooksLike (config.layout other) ∧
      ∀ {σ ε : Type} (evaluate : Evaluator σ ε) (data : Json) (start finish : σ)
        (annotated : NodeTree),
        NodeTree.annotate evaluate data tree start = (.ok annotated, finish) →
          (config.layout annotated).LooksLike (config.layout tree) := by
  refine ⟨config.looksLike_of_skeleton same, ?_⟩
  intro σ ε evaluate data start finish annotated done
  have kept (tree : NodeTree) : tree.unjudged.skeleton = tree.skeleton :=
    NodeTree.skeleton_map (f := Node.unjudged) (fun _ => rfl) (fun _ => ⟨rfl, rfl⟩) tree
  refine config.looksLike_of_skeleton ?_
  rw [← kept annotated, NodeTree.unjudged_of_annotate done, kept]

/-- The first child is a leaf in one tree and collapsed in the other, where its node has been placed
and marked before. -/
theorem layout_of_skeleton_of_collapsed :
    let config := LayoutConfig.standard .horizontal
    let node (id label : String) : Node := { (default : Node) with id, label, expanded := true }
    let hidden : NodeTree := .node (node "b" "a label of any length") []
    let tree : NodeTree :=
      .node (node "r" "and") [.node (node "a" "x") [], .node (node "b" "yy") []]
    let collapsed : Node :=
      { node "a" "!" with
        kind := .operator
        raw := .list [.bool true]
        operator := some "some"
        expanded := false
        depth := 9
        path := ["and", "[0]"]
        result := some .null
        x := some 7
        selected := true }
    let other : NodeTree :=
      .node (node "r" "or!") [.node collapsed [hidden, hidden], .node (node "b" "$z") []]
    let counting : Evaluator Nat Unit := fun rule _ calls => (.ok rule, calls + 1)
    tree.skeleton = other.skeleton ∧
      (config.layout tree).LooksLike (config.layout other) ∧
      (config.layout other).nodes.map (fun box => (box.node.id, box.x, box.y)) =
        [("r", 0, 47), ("a", 144, 0), ("b", 144, 94)] ∧
      ∃ annotated, NodeTree.annotate counting .null tree 0 = (.ok annotated, 3) ∧
        (config.layout annotated).LooksLike (config.layout tree) := by
  intro config node hidden tree collapsed other counting
  have lengths : "and".length = "or!".length ∧ "x".length = "!".length ∧
      "yy".length = "$z".length := by decide
  have same : tree.skeleton = other.skeleton := by
    simpa [tree, other, node, collapsed, NodeTree.skeleton, shown, shownAll, Tree.map,
      Tree.mapAll] using lengths
  obtain ⟨alike, judged⟩ := layout_of_skeleton config same
  exact ⟨same, alike, by decide +kernel, _, rfl, judged counting .null 0 3 _ rfl⟩

end LayoutConfig

end RuleChart
