import RuleChart.Proofs.Flowchart.Connections
import RuleChart.Proofs.Flowchart.Subject

namespace RuleChart.Flowchart

/-! The graph of a flowchart document.

`graph` holds what the document of a rule declares, and `document_eq_graph` says that the
document is the header and the lines of the graph.  `graph_ordered` is the main statement: the
graph is one tree, numbered in preorder, and the edges out of a box are those that the rule of
the box asks for.
-/

/-- A box as a document declares it. -/
structure Declared where
  number : Nat
  shape : Shape
  label : String
  style : Option Style
deriving DecidableEq, Repr

namespace Declared

def ofBox (limit : Int) (number : Nat) (box : Box) : Declared :=
  { number, shape := box.shape, label := escapeLabel limit box.text, style := box.style }

def lines (declared : Declared) : List String :=
  ("    " ++ boxId declared.number ++ declared.shape.opening ++ "\"" ++ declared.label ++ "\"" ++
    declared.shape.closing) ::
    match declared.style with
    | none => []
    | some style => [styleLine declared.number style]

end Declared

structure Graph where
  boxes : List Declared
  edges : List Connection

namespace Graph

def lines (graph : Graph) : List String :=
  graph.boxes.flatMap Declared.lines ++ "" :: graph.edges.map connectionLine

/-- The edges that lead from one box with one link. -/
def exits (graph : Graph) (number : Nat) (link : Link) : List Connection :=
  graph.edges.filter (fun edge => edge.source = number ∧ edge.link = link)

/-- Whether a way along the edges leads from one box down to another. -/
def Below (graph : Graph) (upper lower : Nat) : Prop :=
  Relation.TransGen (fun source target =>
    ∃ edge ∈ graph.edges, edge.source = source ∧ edge.target = target) upper lower

/-- One tree, numbered in preorder: every box but the first has one edge into it, which comes
from a box before it, and the boxes below a box are those that follow it up to some last one. -/
structure Ordered (graph : Graph) : Prop where
  numbers : graph.boxes.map Declared.number = List.range' 1 graph.boxes.length
  root : ∀ edge ∈ graph.edges, edge.target ≠ 1
  parent : ∀ number, 2 ≤ number → number ≤ graph.boxes.length →
    ∃ edge, graph.edges.filter (fun edge => edge.target = number) = [edge]
  forwards : ∀ edge ∈ graph.edges,
    1 ≤ edge.source ∧ edge.source < edge.target ∧ edge.target ≤ graph.boxes.length
  below : ∀ number, 1 ≤ number → number ≤ graph.boxes.length →
    ∃ last, number ≤ last ∧ last ≤ graph.boxes.length ∧
      ∀ other, graph.Below number other ↔ number < other ∧ other ≤ last

/-- The edges that a box of `rule` asks for: a decision has one `yes` edge, one `no` edge if it
has more than two operands, and no other; every other box has only plain edges. -/
def Leads (graph : Graph) (number : Nat) (rule : Rule) : Prop :=
  if rule.isDecision then
    (graph.exits number .yes).length = 1 ∧
      (graph.exits number .no).length = (if 3 ≤ rule.children.length then 1 else 0) ∧
      graph.exits number .plain = []
  else graph.exits number .yes = [] ∧ graph.exits number .no = []

end Graph

/-- The boxes of a document's chart with their numbers, each as the rule it draws. -/
def numberedSubjects (values : Bool) (rule : Rule) : Tree (Nat × Subject) :=
  (subjects values 0 .plain (rule.limitDepth Rule.maxDepth)).numbered 1

def graph (options : FlowchartOptions) (rule : Rule) : Graph :=
  { boxes := (numberedSubjects options.includeValues rule).preorder.map
      (fun entry => Declared.ofBox options.maxLabelLength entry.1 entry.2.box)
    edges := connections ((ofRule options.includeValues rule).numbered 1) }

theorem numbered_ofRule (values : Bool) (rule : Rule) :
    (ofRule values rule).numbered 1 =
      (numberedSubjects values rule).map (fun entry => (entry.1, entry.2.box)) := by
  rw [ofRule, ← subjects_box values 0 .plain _ (.inl rfl), Tree.numbered_map, numberedSubjects]

theorem boxes_graph (options : FlowchartOptions) (rule : Rule) :
    (graph options rule).boxes = ((ofRule options.includeValues rule).numbered 1).preorder.map
      (fun entry => Declared.ofBox options.maxLabelLength entry.1 entry.2) := by
  rw [numbered_ofRule, Tree.preorder_map, List.map_map]
  rfl

theorem document_eq_graph (options : FlowchartOptions) (rule : Rule) :
    document options rule =
      "\n".intercalate (headerLines options ++ (graph options rule).lines) := by
  have boxes : boxLines options.maxLabelLength (ofRule options.includeValues rule) =
      (graph options rule).boxes.flatMap Declared.lines := by
    rw [boxLines, boxes_graph, List.flatMap_map]
    rfl
  simp only [document, documentLines, boxes, Graph.lines, edgeLines, graph, List.append_assoc]

theorem length_boxes (options : FlowchartOptions) (rule : Rule) :
    (graph options rule).boxes.length = (ofRule options.includeValues rule).size := by
  rw [boxes_graph, List.length_map, Tree.length_preorder_numbered]

theorem numbers_boxes (options : FlowchartOptions) (rule : Rule) :
    (graph options rule).boxes.map Declared.number =
      List.range' 1 (graph options rule).boxes.length := by
  rw [length_boxes, boxes_graph, List.map_map]
  exact Tree.preorder_numbered_fst 1 _

section

variable {graph : Graph} {first : Nat} {tree : Tree Box} {part : Tree (Nat × Box)}

theorem mem_connections_of_startsIn (edges : graph.edges = connections (tree.numbered first))
    (member : part ∈ (tree.numbered first).subtrees) {edge : Connection}
    (present : edge ∈ graph.edges) (inside : startsIn part edge = true) :
    edge ∈ connections part := by
  rw [← connections_within tree member]
  exact List.mem_filter.mpr ⟨edges ▸ present, inside⟩

theorem mem_edges_of_part (edges : graph.edges = connections (tree.numbered first))
    (member : part ∈ (tree.numbered first).subtrees) {edge : Connection}
    (present : edge ∈ connections part) : edge ∈ graph.edges := by
  rw [← connections_within tree member] at present
  exact edges ▸ (List.mem_filter.mp present).1

/-- What lies below the root of a part is the rest of the part. -/
theorem below_iff (edges : graph.edges = connections (tree.numbered first)) {start : Nat}
    {plain : Tree Box} (member : plain.numbered start ∈ (tree.numbered first).subtrees)
    (number : Nat) : graph.Below start number ↔ start < number ∧ number < start + plain.size := by
  have positive := plain.size_pos
  constructor
  · intro below
    induction below with
    | single step =>
        obtain ⟨edge, present, rfl, rfl⟩ := step
        have inside := connections_bounds plain (mem_connections_of_startsIn edges member present
          (startsIn_numbered.mpr (by omega)))
        omega
    | tail before step beforeIH =>
        obtain ⟨edge, present, rfl, rfl⟩ := step
        have inside := connections_bounds plain (mem_connections_of_startsIn edges member present
          (startsIn_numbered.mpr (by omega)))
        omega
  · -- Up the edges from `number`: each one comes from a smaller number of the part.
    induction number using Nat.strongRecOn with
    | ind number numberIH =>
        intro ⟨lower, upper⟩
        have target : number ∈ (connections (plain.numbered start)).map Connection.target := by
          rw [(targets_connections start plain).mem_iff, List.mem_range'_1]
          omega
        obtain ⟨edge, present, rfl⟩ := List.mem_map.mp target
        have bounds := connections_bounds plain present
        have step : ∃ other ∈ graph.edges,
            other.source = edge.source ∧ other.target = edge.target :=
          ⟨edge, mem_edges_of_part edges member present, rfl, rfl⟩
        by_cases own : edge.source = start
        · exact .single (own ▸ step)
        · exact .tail (numberIH edge.source bounds.2.1 (by omega)) step

theorem filter_target_of_perm {edges : List Connection} {count number : Nat}
    (targets : (edges.map Connection.target).Perm (List.range' first count))
    (lower : first ≤ number) (upper : number < first + count) :
    ∃ edge, edges.filter (fun edge => edge.target = number) = [edge] := by
  have once : (edges.map Connection.target).count number = 1 := by
    rw [targets.count_eq number, (List.nodup_range').count,
      if_pos (List.mem_range'_1.mpr ⟨lower, upper⟩)]
  rw [List.count, List.countP_map, List.countP_eq_length_filter] at once
  exact List.length_eq_one_iff.mp once

theorem ordered_of_numbered (edges : graph.edges = connections (tree.numbered 1))
    (size : graph.boxes.length = tree.size)
    (numbers : graph.boxes.map Declared.number = List.range' 1 graph.boxes.length) :
    graph.Ordered := by
  have bounds : ∀ edge ∈ graph.edges,
      1 ≤ edge.source ∧ edge.source < edge.target ∧ edge.target ≤ graph.boxes.length := by
    intro edge present
    have inside := connections_bounds tree (edges ▸ present)
    omega
  have positive := tree.size_pos
  constructor
  · exact numbers
  · intro edge present
    have inside := bounds edge present
    omega
  · intro number lower upper
    rw [edges]
    exact filter_target_of_perm (targets_connections 1 tree) lower (by omega)
  · exact bounds
  · intro number lower upper
    obtain ⟨part, member, root⟩ : ∃ part ∈ (tree.numbered 1).subtrees, part.value.1 = number := by
      have present : number ∈ (tree.numbered 1).preorder.map Prod.fst := by
        rw [Tree.preorder_numbered_fst, List.mem_range'_1]
        omega
      rw [Tree.preorder_eq_subtrees, List.map_map] at present
      exact List.mem_map.mp present
    obtain ⟨start, plain, rfl, -, -, inside⟩ := Tree.subtrees_numbered tree member
    obtain rfl : start = number := by simpa [Tree.value_numbered] using root
    have plainPositive := plain.size_pos
    refine ⟨start + plain.size - 1, by omega, by omega, ?_⟩
    intro other
    rw [below_iff edges member]
    omega

end

section

variable {options : FlowchartOptions} {rule : Rule} {part : Tree (Nat × Subject)}

theorem edges_from (member : part ∈ (numberedSubjects options.includeValues rule).subtrees) :
    (graph options rule).edges.filter (fun edge => edge.source = part.value.1) =
      part.children.map (fun child =>
        { source := part.value.1, target := child.value.1, link := child.value.2.link }) := by
  have drawn : part.map (fun entry => (entry.1, entry.2.box)) ∈
      ((ofRule options.includeValues rule).numbered 1).subtrees := by
    rw [numbered_ofRule, Tree.subtrees_map]
    exact List.mem_map.mpr ⟨part, member, rfl⟩
  have out := connections_from (ofRule options.includeValues rule) drawn
  have edges : (graph options rule).edges =
      connections ((ofRule options.includeValues rule).numbered 1) := rfl
  rw [edges]
  simpa [Tree.value_map, Tree.children_map, List.map_map, Function.comp_def, edgeTo, box_link]
    using out

theorem exits_of_part (member : part ∈ (numberedSubjects options.includeValues rule).subtrees)
    (link : Link) :
    (graph options rule).exits part.value.1 link =
      (part.children.filter (fun child => child.value.2.link = link)).map (fun child =>
        { source := part.value.1, target := child.value.1, link := child.value.2.link }) := by
  have split : (graph options rule).exits part.value.1 link =
      ((graph options rule).edges.filter (fun edge => edge.source = part.value.1)).filter
        (fun edge => edge.link = link) := by
    rw [Graph.exits, List.filter_filter]
    apply List.filter_congr
    intro edge _
    rw [Bool.and_comm, Bool.decide_and]
  rw [split, edges_from member, List.filter_map]
  rfl

theorem length_exits (member : part ∈ (numberedSubjects options.includeValues rule).subtrees)
    (link : Link) :
    ((graph options rule).exits part.value.1 link).length =
      (part.children.map (fun child => child.value.2.link)).count link := by
  rw [exits_of_part member, List.length_map, ← List.countP_eq_length_filter, List.count,
    List.countP_map]
  apply List.countP_congr
  intro child _
  simp

theorem links_of_part (member : part ∈ (numberedSubjects options.includeValues rule).subtrees) :
    LinksOut part.value.2.rule (part.children.map (fun child => child.value.2.link)) := by
  obtain ⟨start, plain, rfl, inside, -, -⟩ := Tree.subtrees_numbered _ member
  have links := congrArg (List.map Subject.link) (Tree.children_numbered start plain)
  have fits := subjects_links options.includeValues 0 .plain _ plain inside
  simp only [List.map_map, Function.comp_def] at links
  rw [LinksFit, ← links] at fits
  rwa [Tree.value_numbered]

theorem leads_of_part (member : part ∈ (numberedSubjects options.includeValues rule).subtrees) :
    (graph options rule).Leads part.value.1 part.value.2.rule := by
  have counted := length_exits member
  have links := links_of_part member
  unfold LinksOut at links
  unfold Graph.Leads
  split at links
  · rename_i decision
    rw [if_pos decision, counted, counted, ← List.length_eq_zero_iff, counted, links]
    by_cases more : 3 ≤ part.value.2.rule.children.length
    · rw [if_pos more, if_pos more]
      decide
    · rw [if_neg more, if_neg more]
      decide
  · rename_i settled
    rw [if_neg settled, ← List.length_eq_zero_iff, ← List.length_eq_zero_iff, counted, counted,
      List.count_eq_zero, List.count_eq_zero]
    constructor <;> intro present <;> cases links _ present

/-- Every document shows one tree, numbered in preorder, and the edges out of each of its boxes
are those that the rule of the box asks for. -/
theorem graph_ordered (options : FlowchartOptions) (rule : Rule) :
    document options rule =
        "\n".intercalate (headerLines options ++ (graph options rule).lines) ∧
      (graph options rule).Ordered ∧
      ∀ number subject,
        (number, subject) ∈ (numberedSubjects options.includeValues rule).preorder →
        (graph options rule).Leads number subject.rule ∧
          (subject.rule.isDecision = true → subject.box.shape = .diamond) := by
  refine ⟨document_eq_graph options rule,
    ordered_of_numbered rfl (length_boxes options rule) (numbers_boxes options rule), ?_⟩
  intro number subject present
  rw [Tree.preorder_eq_subtrees] at present
  obtain ⟨part, member, root⟩ := List.mem_map.mp present
  refine ⟨?_, ?_⟩
  · have leads := leads_of_part member
    rwa [root] at leads
  · intro decision
    obtain ⟨operator, condition, value, rest, keys, same, conditional⟩ :=
      Rule.isDecision_cases decision
    obtain ⟨link, _⟩ := subject
    cases same
    rw [decision_box conditional]
    rfl

end

end RuleChart.Flowchart
