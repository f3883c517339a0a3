import RuleChart.Layout.Canvas
import RuleChart.Proofs.Tree.Linkage
import RuleChart.Proofs.Tree.Pairs

namespace RuleChart

variable {K : Type}

/-- Leads to a node of the list from the one right above it, which is listed as well and
expanded. -/
def Edge.Joins (listed : List (List Nat × Node)) (edge : Edge K) (lower : List Nat × Node) : Prop :=
  ∃ address index upper, lower.1 = address ++ [index] ∧ (address, upper) ∈ listed ∧
    upper.expanded = true ∧ edge.source = upper.id ∧ edge.target = lower.2.id

theorem Edge.id_ne_of_target {edge other : Edge K} {index otherIndex : Nat}
    (named : edge.target = Place.defaultId index)
    (otherNamed : other.target = Place.defaultId otherIndex)
    (different : edge.target ≠ other.target) :
    edge.id ≠ other.id := by
  intro same
  have chars := congrArg String.toList same
  have dash : '-'.isDigit = false := by decide
  have numbers : index + 1 = otherIndex + 1 := by
    refine Text.digits_behind_separator dash ("edge-" ++ edge.source ++ "-node").toList
      ("edge-" ++ other.source ++ "-node").toList ?_
    simpa [Edge.id, named, otherNamed, Place.defaultId] using chars
  rw [named, otherNamed, Nat.succ.inj numbers] at different
  exact different rfl

namespace LayoutConfig

open NodeTree (shown shownAll)

section Place

variable [Add K] [Sub K] [Mul K] [Div K] [LT K] [DecidableLT K] [NatCast K]

mutual

theorem node_place (config : LayoutConfig K) (main cross : K) (tree : NodeTree) :
    (config.place main cross (config.measure tree)).map Placed.node = shown tree := by
  cases tree with
  | node node children =>
      simp only [measure, measurePart, place, Tree.map, shown]
      cases node.expanded with
      | true =>
          rw [if_pos rfl, if_pos rfl, node_placeAll config _ _ children]
          rfl
      | false => rfl

theorem node_placeAll (config : LayoutConfig K) (main cross : K) (trees : List NodeTree) :
    Tree.mapAll Placed.node (config.placeAll main cross (config.measureAll trees)) =
      shownAll trees := by
  cases trees with
  | nil => rfl
  | cons tree rest =>
      simp only [measureAll, placeAll, Tree.mapAll, shownAll, node_place config _ _ tree,
        node_placeAll config _ _ rest]

end

mutual

/-- The boxes are those of the parts that the stack comes to. -/
theorem parts_place (config : LayoutConfig K) (main cross : K) (tree : NodeTree) :
    (config.place main cross (config.measure tree)).preorder.map Placed.part =
      NodeTree.sweep [tree] := by
  cases tree with
  | node node children =>
      rw [NodeTree.sweep, List.append_nil, NodeTree.unfolded, Tree.value_node, Tree.children_node]
      simp only [measure, measurePart, place]
      cases node.expanded with
      | true => exact congrArg _ (parts_placeAll config _ _ children)
      | false =>
          rw [if_neg Bool.false_ne_true, if_neg Bool.false_ne_true, NodeTree.sweep]
          rfl

theorem parts_placeAll (config : LayoutConfig K) (main cross : K) (trees : List NodeTree) :
    (Tree.preorderAll (config.placeAll main cross (config.measureAll trees))).map Placed.part =
      NodeTree.sweep trees := by
  cases trees with
  | nil =>
      rw [NodeTree.sweep]
      rfl
  | cons tree rest =>
      have both := NodeTree.sweep_append [tree] rest
      rw [List.singleton_append] at both
      rw [both, ← parts_place config main cross tree, measureAll, placeAll, Tree.preorderAll,
        List.map_append, parts_placeAll config _ _ rest]

end

/-- A box as large as its node asks for. -/
structure Sized (config : LayoutConfig K) (box : Placed K) : Prop where
  width : box.width = config.sizes.nodeWidth box.node.label
  height : box.height = config.sizes.nodeHeight

mutual

theorem sized_of_mem_place (config : LayoutConfig K) (main cross : K) (tree : NodeTree)
    {box : Placed K} (member : box ∈ (config.place main cross (config.measure tree)).preorder) :
    config.Sized box := by
  cases tree with
  | node node children =>
      simp only [measure, measurePart, place] at member
      rcases List.mem_cons.mp member with rfl | below
      · exact ⟨rfl, rfl⟩
      · cases expanded : node.expanded with
        | true =>
            rw [expanded, if_pos rfl] at below
            exact sized_of_mem_placeAll config _ _ children below
        | false =>
            rw [expanded, if_neg Bool.false_ne_true] at below
            cases below

theorem sized_of_mem_placeAll (config : LayoutConfig K) (main cross : K) (trees : List NodeTree)
    {box : Placed K}
    (member : box ∈ Tree.preorderAll (config.placeAll main cross (config.measureAll trees))) :
    config.Sized box := by
  cases trees with
  | nil => cases member
  | cons tree rest =>
      rw [measureAll, placeAll] at member
      rcases List.mem_append.mp member with first | later
      · exact sized_of_mem_place config _ _ tree first
      · exact sized_of_mem_placeAll config _ _ rest later

end

/-- The boxes have the places of the visible nodes. -/
theorem located_arrange (config : LayoutConfig K) (tree : NodeTree) :
    (config.arrange tree).located.map (fun box => (box.1, box.2.node)) =
      tree.located.filter (fun entry => tree.expandedAbove entry.1) := by
  rw [← NodeTree.located_shown, ← node_place config ((0 : Nat) : K) ((0 : Nat) : K) tree,
    Tree.located_map]
  rfl

/-- A node has a box at its address exactly if it is visible. -/
theorem exists_box_iff (config : LayoutConfig K) {tree : NodeTree} {address : List Nat}
    {node : Node} :
    (∃ box, (config.arrange tree).get? address = some box ∧ box.node = node) ↔
      tree.get? address = some node ∧ tree.expandedAbove address = true := by
  have listed : (address, node) ∈
        (config.arrange tree).located.map (fun box => (box.1, box.2.node)) ↔
      (address, node) ∈ tree.located.filter (fun entry => tree.expandedAbove entry.1) := by
    rw [located_arrange]
  rw [List.mem_map, List.mem_filter] at listed
  constructor
  · rintro ⟨box, found, rfl⟩
    obtain ⟨member, visible⟩ := listed.mp ⟨_, Tree.mem_located_of_get? found, rfl⟩
    exact ⟨Tree.get?_of_mem_located tree member, visible⟩
  · rintro ⟨found, visible⟩
    obtain ⟨⟨place, box⟩, member, same⟩ := listed.mpr ⟨Tree.mem_located_of_get? found, visible⟩
    obtain ⟨rfl, rfl⟩ := Prod.mk.inj same
    exact ⟨box, Tree.get?_of_mem_located _ member, rfl⟩

/-- The boxes are those of the visible nodes, in preorder. -/
theorem nodes_arrange (config : LayoutConfig K) (tree : NodeTree) :
    (config.arrange tree).preorder.map Placed.node = tree.visible := by
  rw [NodeTree.visible_eq_preorder, ← node_place config ((0 : Nat) : K) ((0 : Nat) : K) tree,
    Tree.preorder_map]
  rfl

end Place

section Join

variable [Add K] [Div K] [NatCast K]

mutual

theorem edges_eq_pairs (config : LayoutConfig K) (tree : Tree (Placed K)) :
    config.edges tree = tree.pairs.map (fun pair => config.edge pair.1 pair.2) := by
  cases tree with
  | node parent children => exact edgesFrom_eq_pairsBelow config parent children

theorem edgesFrom_eq_pairsBelow (config : LayoutConfig K) (parent : Placed K)
    (trees : List (Tree (Placed K))) :
    config.edgesFrom parent trees =
      (Tree.pairsBelow parent trees).map (fun pair => config.edge pair.1 pair.2) := by
  cases trees with
  | nil => rfl
  | cons child rest =>
      simp only [edgesFrom, Tree.pairsBelow, List.map_append, List.map_cons,
        edges_eq_pairs config child, edgesFrom_eq_pairsBelow config parent rest]

end

end Join

variable [Add K] [Sub K] [Mul K] [Div K] [LT K] [DecidableLT K] [NatCast K]

theorem edges_join (config : LayoutConfig K) (tree : NodeTree) :
    let listed := tree.located.filter (fun entry => tree.expandedAbove entry.1)
    List.Forall₂ (Edge.Joins listed) (config.edges (config.arrange tree)) listed.tail := by
  intro listed
  have below : listed.tail =
      (config.arrange tree).located.tail.map (fun box => (box.1, box.2.node)) := by
    rw [List.map_tail, config.located_arrange tree]
  rw [edges_eq_pairs, below, List.forall₂_map_left_iff, List.forall₂_map_right_iff]
  refine (Tree.pairs_located _).imp ?_
  rintro pair place ⟨address, index, rfl, upper, lower⟩
  obtain ⟨above, seen⟩ := (exists_box_iff config).mp ⟨_, upper, rfl⟩
  obtain ⟨-, visible⟩ := (exists_box_iff config).mp ⟨_, lower, rfl⟩
  rw [NodeTree.expandedAbove_concat, above, Option.any_some, Bool.and_eq_true] at visible
  have member : (address, pair.1.node) ∈ listed :=
    List.mem_filter.mpr ⟨Tree.mem_located_of_get? above, seen⟩
  exact ⟨address, index, pair.1.node, rfl, member, visible.2, rfl, rfl⟩

theorem targets_sublist (config : LayoutConfig K) (tree : NodeTree) :
    ((config.edges (config.arrange tree)).map Edge.target).Sublist tree.ids := by
  let listed := tree.located.filter (fun entry => tree.expandedAbove entry.1)
  have targets : (config.edges (config.arrange tree)).map Edge.target =
      listed.tail.map (fun entry => entry.2.id) := by
    rw [← List.forall₂_eq_eq_eq, List.forall₂_map_left_iff, List.forall₂_map_right_iff]
    refine (edges_join config tree).imp ?_
    rintro edge lower ⟨address, index, upper, -, -, -, -, target⟩
    exact target
  have ids : tree.ids = tree.located.map (fun entry => entry.2.id) := by
    rw [NodeTree.ids, ← Tree.located_snd, List.map_map]
    rfl
  rw [targets, ids]
  exact ((List.tail_sublist listed).trans List.filter_sublist).map _

/-- Edges to different nodes have different ids, if the ids of the nodes are those that a tree gets
by default. -/
theorem edgeIds_nodup (config : LayoutConfig K) {tree : NodeTree} {count : Nat}
    (ids : tree.ids = (List.range count).map Place.defaultId) :
    ((config.edges (config.arrange tree)).map Edge.id).Nodup := by
  have targets := targets_sublist config tree
  rw [ids] at targets
  have distinct := (List.Nodup.map Place.defaultId_injective List.nodup_range).sublist targets
  have named {edge : Edge K} (member : edge ∈ config.edges (config.arrange tree)) :
      ∃ index, Place.defaultId index = edge.target := by
    obtain ⟨index, -, same⟩ := List.mem_map.mp (targets.subset (List.mem_map_of_mem member))
    exact ⟨index, same⟩
  refine List.pairwise_map.mpr ((List.pairwise_map.mp distinct).imp_of_mem ?_)
  intro edge other member otherMember different
  obtain ⟨index, same⟩ := named member
  obtain ⟨otherIndex, otherSame⟩ := named otherMember
  exact Edge.id_ne_of_target same.symm otherSame.symm different

/-- The nodes of a layout are the visible nodes of the tree in preorder, with the sizes that they
ask for, and all that was below them is below them still.  Each of them but the first is the end of
one edge, in the same order, and the edge comes from the node right above it.  The edges of a tree
that was built with the default ids have ids of their own, whatever has been expanded or collapsed
since. -/
theorem layout_shows_visible [Extremes K] (config : LayoutConfig K) (tree : NodeTree) :
    let layout := config.layout tree
    let listed := tree.located.filter (fun entry => tree.expandedAbove entry.1)
    (layout.nodes.map Placed.node = tree.visible ∧ listed.map Prod.snd = tree.visible) ∧
      (layout.nodes.map Placed.part = NodeTree.sweep [tree] ∧
        (NodeTree.sweep [tree]).map Tree.value = tree.visible) ∧
      (∀ box ∈ layout.nodes, config.Sized box) ∧
      List.Forall₂ (Edge.Joins listed) layout.edges listed.tail ∧
      ∀ (place : Place) (rule : Rule) (cache : LabelCache) (changes : List Edit),
        let built := ((NodeTree.build { place with ids := Place.defaultId } rule) cache).1
        ((config.layout (built.edits changes)).edges.map Edge.id).Nodup := by
  intro layout listed
  refine ⟨⟨nodes_arrange config tree, (NodeTree.visible_eq_filter tree).symm⟩,
    ⟨parts_place config _ _ tree, (NodeTree.visible_eq_sweep tree).symm⟩, ?sized,
    edges_join config tree, ?ids⟩
  case sized =>
    intro box member
    exact sized_of_mem_place config _ _ tree member
  case ids =>
    intro place rule cache changes built
    have ids := NodeTree.ids_of_unflagged (NodeTree.unflagged_edits built changes)
    rw [NodeTree.ids_build] at ids
    exact edgeIds_nodup config ids

end LayoutConfig

end RuleChart
