import Mathlib.Data.List.Nodup
import Mathlib.Logic.Relation
import RuleChart.Proofs.Flowchart.Graph
import RuleChart.Proofs.Tree.Pruning

namespace RuleChart.Flowchart

/-! Graphs without what lies below some of their boxes.

Such a graph is made by taking boxes and edges away and numbering what is left anew.
`ofChart_pruned` says that it is the graph of a pruned chart.  Whether a box is left can be told
from the edge that leads to it, so what is below a box has no say in anything beside it.
-/

theorem connectionsFrom_eq_flatMap (source : Nat) (children : List (Tree (Nat × Box))) :
    connectionsFrom source children = children.flatMap fun child =>
      if child.value.2.link = .plain then edgeTo source child :: connections child
      else connections child ++ [edgeTo source child] := by
  induction children with
  | nil => rfl
  | cons child rest restIH => rw [connectionsFrom_cons, restIH, List.flatMap_cons]

section Edges

variable {visible : Nat → Bool} {stops : Box → Bool} {tree : Tree (Nat × Box)}

/-- Whether both ends of an edge can be seen. -/
def Connection.seen (visible : Nat → Bool) (edge : Connection) : Bool :=
  visible edge.source && visible edge.target

theorem filter_connectionsFrom_of_dropped (source : Nat) {children : List (Tree (Nat × Box))}
    (dropped : ∀ child ∈ children, visible child.value.1 = false)
    (below : ∀ child ∈ children, (connections child).filter (Connection.seen visible) = []) :
    (connectionsFrom source children).filter (Connection.seen visible) = [] := by
  rw [connectionsFrom_eq_flatMap, List.filter_flatMap, List.flatMap_eq_nil_iff]
  intro child member
  have edge : (edgeTo source child).seen visible = false := by
    simp [Connection.seen, edgeTo, dropped child member]
  split <;> simp [below child member, edge]

theorem filter_connections_of_dropped
    (keeps : tree.Keeps (fun entry => visible entry.1) (fun entry => stops entry.2))
    (dropped : visible tree.value.1 = false) :
    (connections tree).filter (Connection.seen visible) = [] := by
  induction tree using Tree.children_induction with
  | step tree childIH =>
      have hidden (child : Tree (Nat × Box)) (member : child ∈ tree.children) :
          visible child.value.1 = false :=
        (keeps.child member).trans (by rw [dropped, Bool.false_and])
      obtain ⟨⟨number, box⟩, children⟩ := tree
      exact filter_connectionsFrom_of_dropped number hidden fun child member =>
        childIH child member (keeps.below member) (hidden child member)

theorem connections_pruned
    (keeps : tree.Keeps (fun entry => visible entry.1) (fun entry => stops entry.2))
    (root : visible tree.value.1 = true) :
    connections (tree.pruned (fun entry => stops entry.2)) =
      (connections tree).filter (Connection.seen visible) := by
  induction tree using Tree.children_induction with
  | step tree childIH =>
      obtain ⟨⟨number, box⟩, children⟩ := tree
      rw [Tree.value_node] at root
      have shown (child : Tree (Nat × Box)) (member : child ∈ children) :
          visible child.value.1 = !stops box := by
        rw [keeps.child member, Tree.value_node, root, Bool.true_and]
      rw [Tree.pruned, connections, connections]
      cases stop : stops box with
      | true =>
          have hidden (child : Tree (Nat × Box)) (member : child ∈ children) :
              visible child.value.1 = false :=
            (shown child member).trans (by rw [stop, Bool.not_true])
          refine (filter_connectionsFrom_of_dropped number hidden fun child member => ?_).symm
          exact filter_connections_of_dropped (keeps.below member) (hidden child member)
      | false =>
          rw [if_neg Bool.false_ne_true, Tree.prunedAll_eq_map, connectionsFrom_eq_flatMap,
            connectionsFrom_eq_flatMap, List.flatMap_map, List.filter_flatMap]
          refine List.flatMap_congr fun child member => ?_
          have own : visible child.value.1 = true :=
            (shown child member).trans (by rw [stop, Bool.not_false])
          have below := childIH child member (keeps.below member) own
          have edge : (edgeTo number child).seen visible = true := by
            simp [Connection.seen, edgeTo, root, own]
          have same : edgeTo number (child.pruned fun entry => stops entry.2) =
              edgeTo number child := by
            simp [edgeTo]
          rw [Tree.value_pruned, same, below]
          split <;> simp [edge]

end Edges

/-- The same edge between boxes with other numbers. -/
def Connection.renumber (place : Nat → Nat) (edge : Connection) : Connection :=
  { edge with source := place edge.source, target := place edge.target }

theorem connections_renumber (place : Nat → Nat) (tree : Tree (Nat × Box)) :
    connections (tree.map fun entry => (place entry.1, entry.2)) =
      (connections tree).map (Connection.renumber place) := by
  induction tree using Tree.children_induction with
  | step tree childIH =>
      obtain ⟨⟨number, box⟩, children⟩ := tree
      rw [Tree.map, Tree.mapAll_eq_map, connections, connections, connectionsFrom_eq_flatMap,
        connectionsFrom_eq_flatMap, List.flatMap_map, List.map_flatMap]
      refine List.flatMap_congr fun child member => ?_
      rw [childIH child member, Tree.value_map, apply_ite (List.map _), List.map_cons,
        List.map_append]
      simp [edgeTo, Connection.renumber]

namespace Graph

/-- Whether a box lies below one of the boxes that are `closed`. -/
def Covered (graph : Graph) (closed : Declared → Prop) (number : Nat) : Prop :=
  ∃ box ∈ graph.boxes, closed box ∧ graph.Below box.number number

open Classical in
/-- The graph without what lies below closed boxes: without these boxes and the edges at them. -/
noncomputable def withoutCovered (graph : Graph) (closed : Declared → Prop) : Graph :=
  { boxes := graph.boxes.filter (fun box => ¬ graph.Covered closed box.number)
    edges := graph.edges.filter
      (fun edge => ¬ graph.Covered closed edge.source ∧ ¬ graph.Covered closed edge.target) }

/-- The place of a box in the order of the boxes, from 1 on. -/
def place (graph : Graph) (number : Nat) : Nat :=
  (graph.boxes.map Declared.number).idxOf number + 1

/-- The graph with its boxes numbered in their order. -/
def renumbered (graph : Graph) : Graph :=
  { boxes := graph.boxes.map (fun box => { box with number := graph.place box.number })
    edges := graph.edges.map (Connection.renumber graph.place) }

/-- The graph of a chart whose boxes have numbers. -/
def ofNumbered (limit : Int) (tree : Tree (Nat × Box)) : Graph :=
  { boxes := tree.preorder.map (fun entry => Declared.ofBox limit entry.1 entry.2)
    edges := connections tree }

/-- The graph of a chart, numbered in preorder. -/
def ofChart (limit : Int) (chart : Tree Box) : Graph := ofNumbered limit (chart.numbered 1)

/-- Of the boxes of a chart, those are closed at which the chart stops. -/
def Closes (limit : Int) (chart : Tree Box) (closed : Declared → Prop) (stops : Box → Bool) :
    Prop :=
  ∀ entry ∈ (chart.numbered 1).preorder,
    closed (Declared.ofBox limit entry.1 entry.2) ↔ stops entry.2 = true

section

variable {limit : Int} {chart : Tree Box} {part child : Tree (Nat × Box)} {stops : Box → Bool}
  {closed : Declared → Prop}

theorem edge_into_child (member : part ∈ (chart.numbered 1).subtrees)
    (below : child ∈ part.children) {source : Nat} :
    (∃ edge ∈ (ofChart limit chart).edges, edge.source = source ∧ edge.target = child.value.1) ↔
      source = part.value.1 := by
  have own : edgeTo part.value.1 child ∈ connections (chart.numbered 1) := by
    have listed : edgeTo part.value.1 child ∈ part.children.map (edgeTo part.value.1) :=
      List.mem_map_of_mem below
    rw [← connections_from chart member] at listed
    exact (List.mem_filter.mp listed).1
  have once : ((connections (chart.numbered 1)).map Connection.target).Nodup :=
    (targets_connections 1 chart).nodup_iff.mpr List.nodup_range'
  constructor
  · rintro ⟨edge, present, rfl, target⟩
    have same : edge = edgeTo part.value.1 child :=
      List.inj_on_of_nodup_map once present own target
    rw [same]
    rfl
  · rintro rfl
    exact ⟨_, own, rfl, rfl⟩

/-- Every way into a child leads through its parent. -/
theorem below_child (member : part ∈ (chart.numbered 1).subtrees) (below : child ∈ part.children)
    (upper : Nat) :
    (ofChart limit chart).Below upper child.value.1 ↔
      part.value.1 = upper ∨ (ofChart limit chart).Below upper part.value.1 := by
  unfold Below
  rw [Relation.TransGen.tail'_iff, ← Relation.reflTransGen_iff_eq_or_transGen]
  constructor
  · rintro ⟨source, way, last⟩
    rwa [(edge_into_child member below).mp last] at way
  · intro way
    exact ⟨_, way, (edge_into_child member below).mpr rfl⟩

theorem closed_of_part (closes : Closes limit chart closed stops)
    (member : part ∈ (chart.numbered 1).subtrees) :
    (∃ box ∈ (ofChart limit chart).boxes, closed box ∧ part.value.1 = box.number) ↔
      stops part.value.2 = true := by
  have own : part.value ∈ (chart.numbered 1).preorder := by
    rw [Tree.preorder_eq_subtrees]
    exact List.mem_map_of_mem member
  have once := Tree.nodup_numbers 1 chart
  constructor
  · rintro ⟨box, listed, shut, number⟩
    obtain ⟨entry, present, rfl⟩ := List.mem_map.mp listed
    obtain rfl : part.value = entry := List.inj_on_of_nodup_map once own present number
    exact (closes _ own).mp shut
  · intro stop
    exact ⟨_, List.mem_map_of_mem own, (closes _ own).mpr stop, rfl⟩

theorem covered_child (closes : Closes limit chart closed stops)
    (member : part ∈ (chart.numbered 1).subtrees) (below : child ∈ part.children) :
    (ofChart limit chart).Covered closed child.value.1 ↔
      stops part.value.2 = true ∨ (ofChart limit chart).Covered closed part.value.1 := by
  simp only [Covered, below_child member below, ← closed_of_part closes member, and_or_left,
    exists_or]

theorem not_covered_root : ¬ (ofChart limit chart).Covered closed 1 := by
  rintro ⟨box, -, -, below⟩
  obtain ⟨source, -, edge, present, -, target⟩ := Relation.TransGen.tail'_iff.mp below
  have bounds := connections_bounds chart present
  omega

open Classical in
/-- Whether a box of the graph of a chart is not covered. -/
noncomputable def visible (limit : Int) (chart : Tree Box) (closed : Declared → Prop)
    (number : Nat) : Bool :=
  ¬ (ofChart limit chart).Covered closed number

theorem keeps_visible (closes : Closes limit chart closed stops) :
    (chart.numbered 1).Keeps (fun entry => visible limit chart closed entry.1)
      (fun entry => stops entry.2) := by
  intro part member child below
  have covered := covered_child closes member below
  cases stop : stops part.value.2 <;> simp [visible, covered, stop]

theorem visible_root : visible limit chart closed (chart.numbered 1).value.1 = true := by
  simp [visible, Tree.value_numbered, not_covered_root]

/-- Pruning takes away what is covered. -/
theorem withoutCovered_ofChart (closes : Closes limit chart closed stops) :
    (ofChart limit chart).withoutCovered closed =
      ofNumbered limit ((chart.numbered 1).pruned (fun entry => stops entry.2)) := by
  have boxes : ((ofChart limit chart).withoutCovered closed).boxes =
      ((chart.numbered 1).preorder.filter (fun entry => visible limit chart closed entry.1)).map
        (fun entry => Declared.ofBox limit entry.1 entry.2) :=
    List.filter_map
  have edges : ((ofChart limit chart).withoutCovered closed).edges =
      (connections (chart.numbered 1)).filter
        (Connection.seen (visible limit chart closed)) := by
    refine List.filter_congr fun edge _ => ?_
    rw [Bool.eq_iff_iff]
    simp [Connection.seen, visible]
  rw [← Tree.preorder_pruned (keeps_visible closes) visible_root] at boxes
  rw [← connections_pruned (keeps_visible closes) visible_root] at edges
  rw [ofNumbered, ← boxes, ← edges]

theorem map_idxOf_of_nodup {keys : List Nat} (once : keys.Nodup) :
    keys.map (fun key => keys.idxOf key + 1) = List.range' 1 keys.length := by
  refine List.ext_getElem (by simp) fun index inKeys _ => ?_
  simp [once.idxOf_getElem, Nat.add_comm]

/-- Boxes with numbers of their own get the numbers of the chart. -/
theorem renumbered_ofNumbered {tree : Tree (Nat × Box)}
    (once : (tree.preorder.map Prod.fst).Nodup) :
    (ofNumbered limit tree).renumbered = ofChart limit (tree.map Prod.snd) := by
  have numbers : (ofNumbered limit tree).boxes.map Declared.number =
      tree.preorder.map Prod.fst := by
    rw [ofNumbered, List.map_map]
    rfl
  -- The places of the boxes are their numbers in preorder.
  have ranks : tree.preorder.map (fun entry => (ofNumbered limit tree).place entry.1) =
      List.range' 1 tree.size := by
    have places := map_idxOf_of_nodup once
    rw [List.map_map, List.length_map, Tree.length_preorder] at places
    simpa only [place, numbers, Function.comp_def] using places
  rw [ofChart, Tree.numbered_map_snd _ 1 tree ranks, renumbered]
  change _ = Graph.mk (List.map _ (Tree.map _ tree).preorder) (connections (Tree.map _ tree))
  rw [connections_renumber, Tree.preorder_map, List.map_map]
  simp only [ofNumbered, List.map_map]
  rfl

/-- The graph of a pruned chart is the graph of the chart without what the pruning takes away. -/
theorem ofChart_pruned (closes : Closes limit chart closed stops) :
    ofChart limit (chart.pruned stops) =
      ((ofChart limit chart).withoutCovered closed).renumbered := by
  have once : (((chart.numbered 1).pruned (fun entry => stops entry.2)).preorder.map
      Prod.fst).Nodup := by
    rw [Tree.preorder_pruned (keeps_visible closes) visible_root]
    exact (Tree.nodup_numbers 1 chart).sublist (List.filter_sublist.map _)
  rw [withoutCovered_ofChart closes, renumbered_ofNumbered once, Tree.map_pruned,
    Tree.map_numbered]

end

end Graph

theorem graph_eq_ofChart (options : FlowchartOptions) (rule : Rule) :
    graph options rule =
      Graph.ofChart options.maxLabelLength (ofRule options.includeValues rule) := by
  have boxes := boxes_graph options rule
  rw [Graph.ofChart, Graph.ofNumbered, ← boxes]
  rfl

end RuleChart.Flowchart
