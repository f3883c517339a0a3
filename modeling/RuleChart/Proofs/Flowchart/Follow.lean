import Mathlib.Data.List.Forall2
import RuleChart.Proofs.Flowchart.Graph
import RuleChart.Proofs.Tree.Walk

namespace RuleChart

namespace Flowchart

/-! The graph of a document and the tree of a rule take the same decisions.

The boxes of a graph hold texts, so a way through a graph is told the answers to the conditions
it asks, one for each decision.  `follow_walk` is the main statement: with the answers of a
tree's way, the way through the graph asks the same conditions and finishes at the same outcome.
-/

def Link.ofAnswer : Bool → Link
  | true => .yes
  | false => .no

namespace Graph

/-- The box behind the first edge that leads from a box with a link. -/
def next? (graph : Graph) (number : Nat) (link : Link) : Option Nat :=
  (graph.exits number link).head?.map Connection.target

/-- The way from a box when the decisions on it are answered in turn. -/
def follow (graph : Graph) : Nat → List Bool → Descent Nat
  | number, [] => ⟨[], some number⟩
  | number, answer :: answers =>
      match graph.next? number (.ofAnswer answer) with
      | none => ⟨[number], none⟩
      | some next => (graph.follow next answers).after number

/-- The box with a number asks a condition. -/
def Asks (graph : Graph) (limit : Int) (number : Nat) (condition : Rule) : Prop :=
  { number, shape := .diamond, label := escapeLabel limit (conditionText condition),
    style := some .condition } ∈ graph.boxes

/-- The box with a number is that of an outcome, and no answer leads on from it. -/
structure Ends (graph : Graph) (limit : Int) (number : Nat) (value : Rule) : Prop where
  box : ∃ link, Declared.ofBox limit number (Box.ending link value) ∈ graph.boxes
  yes : graph.exits number .yes = []
  no : graph.exits number .no = []

end Graph

/-- The answer to the condition that a decision asks. -/
def answer (holds : Rule → Bool) (rule : Rule) : Bool := rule.condition?.any holds

/-- A way through a graph and a way through a tree ask the same conditions in the same order,
and finish together, at the same outcome or with nothing. -/
structure Together (graph : Graph) (limit : Int) (route : Descent Nat) (way : Descent Node) :
    Prop where
  asks : List.Forall₂ (fun number node => ∃ condition,
    node.raw.condition? = some condition ∧ graph.Asks limit number condition)
    route.passed way.passed
  ends : Option.Rel (fun number node => graph.Ends limit number node.raw) route.finish way.finish

section

variable {options : FlowchartOptions} {rule : Rule} {part : Tree (Nat × Subject)}

theorem next?_of_part (member : part ∈ (numberedSubjects options.includeValues rule).subtrees)
    (decision : part.value.2.rule.isDecision = true) (truth : Bool) :
    (graph options rule).next? part.value.1 (.ofAnswer truth) =
      part.children[if truth then 0 else 1]?.map (fun child => child.value.1) := by
  have links := links_of_part member
  rw [LinksOut, if_pos decision] at links
  rw [Graph.next?, exits_of_part member]
  split at links
  · obtain ⟨first, rest, children, firstLink, restLinks⟩ := List.map_eq_cons_iff.mp links
    obtain ⟨second, others, rfl, secondLink, noLinks⟩ := List.map_eq_cons_iff.mp restLinks
    obtain rfl := List.map_eq_nil_iff.mp noLinks
    rw [children]
    cases truth <;> simp [Link.ofAnswer, firstLink, secondLink]
  · obtain ⟨first, rest, children, firstLink, noLinks⟩ := List.map_eq_cons_iff.mp links
    obtain rfl := List.map_eq_nil_iff.mp noLinks
    rw [children]
    cases truth <;> simp [Link.ofAnswer, firstLink]

/-- The turns of the boxes: those of the rules that they draw. -/
def boxTurn (holds : Rule → Bool) (entry : Nat × Subject) : Option Nat :=
  entry.2.rule.side? holds

def answers (holds : Rule → Bool) (passed : List (Nat × Subject)) : List Bool :=
  passed.map (fun entry => answer holds entry.2.rule)

theorem boxTurn_decision (holds : Rule → Bool) {entry : Nat × Subject} {index : Nat}
    (turned : boxTurn holds entry = some index) :
    entry.2.rule.isDecision = true ∧ index = if answer holds entry.2.rule then 0 else 1 := by
  unfold boxTurn Rule.side? at turned
  obtain ⟨condition, asked, rfl⟩ := Option.map_eq_some_iff.mp turned
  obtain ⟨operator, value, rest, keys, same, conditional⟩ := Rule.condition?_cases asked
  constructor
  · rw [same]
    exact Rule.isDecision_apply.mpr conditional
  · simp [answer, asked]

mutual

theorem follow_descend (holds : Rule → Bool) (part : Tree (Nat × Subject))
    (member : part ∈ (numberedSubjects options.includeValues rule).subtrees) :
    (graph options rule).follow part.value.1
        (answers holds (part.descend (boxTurn holds)).passed) =
      (part.descend (boxTurn holds)).map Prod.fst := by
  cases part with
  | node entry children =>
      simp only [Tree.descend, Tree.value_node]
      cases turned : boxTurn holds entry with
      | none => rfl
      | some index =>
          obtain ⟨decision, rfl⟩ := boxTurn_decision holds turned
          have next := next?_of_part member decision (answer holds entry.2.rule)
          simp only [Tree.value_node, Tree.children_node] at next
          simp only [Descent.after, answers, List.map_cons, Graph.follow, next]
          cases found : children[if answer holds entry.2.rule = true then 0 else 1]? with
          | none =>
              rw [Tree.descendAt_getElem?, found]
              rfl
          | some child =>
              have below := follow_descendAt holds children (fun other inside => by
                have ofChild : other ∈ (Tree.node entry children).subtrees :=
                  Tree.mem_subtrees_of_child inside
                exact Tree.mem_subtrees_trans _ member ofChild) found
              rw [answers] at below
              simp only [Option.map_some, below]
              rfl

theorem follow_descendAt (holds : Rule → Bool) (parts : List (Tree (Nat × Subject)))
    (members : ∀ part ∈ parts, part ∈ (numberedSubjects options.includeValues rule).subtrees)
    {index : Nat} {next : Tree (Nat × Subject)} (found : parts[index]? = some next) :
    (graph options rule).follow next.value.1
        (answers holds (Tree.descendAt (boxTurn holds) index parts).passed) =
      (Tree.descendAt (boxTurn holds) index parts).map Prod.fst := by
  match parts, index with
  | part :: _, 0 =>
      obtain rfl : part = next := by simpa using found
      exact follow_descend holds part (members part List.mem_cons_self)
  | _ :: rest, index + 1 =>
      exact follow_descendAt holds rest
        (fun other inside => members other (List.mem_cons_of_mem _ inside)) found

end

theorem mem_boxes {entry : Nat × Subject}
    (member : entry ∈ (numberedSubjects options.includeValues rule).preorder) :
    Declared.ofBox options.maxLabelLength entry.1 entry.2.box ∈ (graph options rule).boxes :=
  List.mem_map.mpr ⟨entry, member, rfl⟩

theorem asks_of_mem {entry : Nat × Subject} {condition : Rule}
    (member : entry ∈ (numberedSubjects options.includeValues rule).preorder)
    (asked : entry.2.rule.condition? = some condition) :
    (graph options rule).Asks options.maxLabelLength entry.1 condition := by
  have box := mem_boxes member
  obtain ⟨operator, value, rest, keys, same, conditional⟩ := Rule.condition?_cases asked
  obtain ⟨number, link, _⟩ := entry
  cases same
  rwa [decision_box conditional] at box

theorem ends_of_part (member : part ∈ (numberedSubjects options.includeValues rule).subtrees)
    (linked : part.value.2.link ≠ .plain) (settled : part.value.2.rule.isDecision = false) :
    (graph options rule).Ends options.maxLabelLength part.value.1 part.value.2.rule := by
  have leads := leads_of_part member
  rw [Graph.Leads, if_neg (by simp [settled])] at leads
  have inOrder : part.value ∈ (numberedSubjects options.includeValues rule).preorder := by
    rw [Tree.preorder_eq_subtrees]
    exact List.mem_map_of_mem member
  have box := mem_boxes inOrder
  refine ⟨⟨part.value.2.link, ?_⟩, leads.1, leads.2⟩
  rwa [← ending_box linked settled]

/-- Below a decision, no way finishes at a box with a plain link. -/
theorem ends_of_finish (holds : Rule → Bool) {entry : Nat × Subject}
    (decision : (rule.limitDepth Rule.maxDepth).isDecision = true)
    (found : ((numberedSubjects options.includeValues rule).descend (boxTurn holds)).finish =
      some entry) :
    (graph options rule).Ends options.maxLabelLength entry.1 entry.2.rule := by
  obtain ⟨final, part, member, rfl, above⟩ := Tree.turn_of_finish _ found
  have settled : part.value.2.rule.isDecision = false := Rule.side?_eq_none_iff.mp final
  refine ends_of_part member ?_ settled
  rcases above with rfl | ⟨parent, parentMember, child, parentTurn⟩
  · have root : (numberedSubjects options.includeValues rule).value.2.rule =
        rule.limitDepth Rule.maxDepth := by
      rw [numberedSubjects, Tree.value_numbered, subjects_value]
    rw [root, decision] at settled
    cases settled
  · have parentDecision : parent.value.2.rule.isDecision = true := by
      cases parentDecision : parent.value.2.rule.isDecision with
      | true => rfl
      | false => exact absurd (Rule.side?_eq_none_iff.mpr parentDecision) parentTurn
    have links := links_of_part parentMember
    rw [LinksOut, if_pos parentDecision] at links
    have inLinks : part.value.2.link ∈ parent.children.map (fun child => child.value.2.link) :=
      List.mem_map.mpr ⟨part, child, rfl⟩
    rw [links] at inLinks
    intro plain
    rw [plain] at inLinks
    split at inLinks <;> simp at inLinks

theorem subjects_descend (holds : Rule → Bool) (values : Bool) (rule : Rule) :
    ((numberedSubjects values rule).descend (boxTurn holds)).map (fun entry => entry.2.rule) =
      Rule.drawnCourse holds 0 (rule.limitDepth Rule.maxDepth) := by
  have plain : (numberedSubjects values rule).map (fun entry => entry.2.rule) =
      (subjects values 0 .plain (rule.limitDepth Rule.maxDepth)).map Subject.rule := by
    rw [← Tree.map_numbered 1 (subjects values 0 .plain (rule.limitDepth Rule.maxDepth)),
      Tree.map_map]
    rfl
  have decides := subjects_decides values 0 .plain (rule.limitDepth Rule.maxDepth)
  rw [← decides.descend holds, ← plain, Tree.descend_map]
  rfl

theorem forall₂_of_map_eq {α β γ : Type} {f : α → γ} {g : β → γ} {left : List α} {right : List β}
    (same : left.map f = right.map g) :
    List.Forall₂ (fun a b => f a = g b) left right := by
  rw [← List.forall₂_eq_eq_eq, List.forall₂_map_left_iff, List.forall₂_map_right_iff] at same
  exact same

/-- A way through the boxes goes along with every way of nodes that has the same rules on it. -/
theorem together_of_drawn (holds : Rule → Bool) {way : Descent Node}
    (decision : (rule.limitDepth Rule.maxDepth).isDecision = true)
    (drawn : ((numberedSubjects options.includeValues rule).descend (boxTurn holds)).map
      (fun entry => entry.2.rule) = way.map Node.raw) :
    Together (graph options rule) options.maxLabelLength
      (((numberedSubjects options.includeValues rule).descend (boxTurn holds)).map Prod.fst)
      way where
  asks := by
    have passed := forall₂_of_map_eq (congrArg Descent.passed drawn)
    have known : ∀ entry ∈
        ((numberedSubjects options.includeValues rule).descend (boxTurn holds)).passed,
        entry ∈ (numberedSubjects options.includeValues rule).preorder ∧
          boxTurn holds entry ≠ none :=
      fun entry member => Tree.turn_of_mem_passed _ member
    have paired := (List.forall₂_and_left _ _).mpr ⟨known, passed⟩
    rw [Descent.map, List.forall₂_map_left_iff]
    refine paired.imp ?_
    rintro entry node ⟨⟨member, turned⟩, same⟩
    cases asked : entry.2.rule.condition? with
    | none =>
        have settled := Rule.condition?_eq_none_iff.mp asked
        exact absurd (Rule.side?_eq_none_iff.mpr settled) turned
    | some condition => exact ⟨condition, same ▸ asked, asks_of_mem member asked⟩
  ends := by
    have finish := congrArg Descent.finish drawn
    simp only [Descent.map] at finish ⊢
    cases reached : ((numberedSubjects options.includeValues rule).descend
        (boxTurn holds)).finish with
    | none =>
        rw [reached] at finish
        rw [Option.map_eq_none_iff.mp finish.symm]
        exact .none
    | some entry =>
        rw [reached] at finish
        obtain ⟨node, arrived, same⟩ := Option.map_eq_some_iff.mp finish.symm
        rw [arrived]
        exact .some (same ▸ ends_of_finish holds decision reached)

end

/-- The way through the graph of a conditional goes along with the way through its tree. -/
theorem follow_walk (holds : Rule → Bool) (options : FlowchartOptions) (rule : Rule)
    (decision : (rule.limitDepth Rule.maxDepth).isDecision = true) :
    document options rule =
        "\n".intercalate (headerLines options ++ (graph options rule).lines) ∧
      Together (graph options rule) options.maxLabelLength
        ((graph options rule).follow 1
          ((NodeTree.walk holds (NodeTree.ofRule rule)).passed.map
            (fun node => answer holds node.raw)))
        (NodeTree.walk holds (NodeTree.ofRule rule)) := by
  have drawn : ((numberedSubjects options.includeValues rule).descend (boxTurn holds)).map
      (fun entry => entry.2.rule) = (NodeTree.walk holds (NodeTree.ofRule rule)).map Node.raw :=
    (subjects_descend holds options.includeValues rule).trans
      (NodeTree.walk_build holds _ rule _).symm
  have told : answers holds
        ((numberedSubjects options.includeValues rule).descend (boxTurn holds)).passed =
      (NodeTree.walk holds (NodeTree.ofRule rule)).passed.map
        (fun node => answer holds node.raw) := by
    have same := congrArg (fun way => way.passed.map (answer holds)) drawn
    simp only [Descent.map, List.map_map] at same
    exact same
  have followed := follow_descend holds (numberedSubjects options.includeValues rule)
    (Tree.self_mem_subtrees _)
  have root : (numberedSubjects options.includeValues rule).value.1 = 1 := by
    rw [numberedSubjects, Tree.value_numbered]
  rw [told, root] at followed
  refine ⟨document_eq_graph options rule, ?_⟩
  rw [followed]
  exact together_of_drawn holds decision drawn

/-- A chain whose first condition does not hold and whose second one does: the way leaves the first
box by its edge for no, and the next one by its edge for yes. -/
theorem follow_walk_of_chain :
    let rule : Rule :=
      .apply "if" [.bool false, .string "a", .bool true, .string "b", .string "c"] []
    let holds : Rule → Bool
      | .bool value => value
      | _ => false
    (rule.limitDepth Rule.maxDepth).isDecision = true ∧
      (NodeTree.walk holds (NodeTree.ofRule rule)).passed.map (fun node => answer holds node.raw) =
        [false, true] ∧
      Together (graph .standard rule) 50 ⟨[1, 3], some 4⟩
        (NodeTree.walk holds (NodeTree.ofRule rule)) := by
  intro rule holds
  have decision : (rule.limitDepth Rule.maxDepth).isDecision = true := by decide +kernel
  have answered : (NodeTree.walk holds (NodeTree.ofRule rule)).passed.map
      (fun node => answer holds node.raw) = [false, true] := by decide +kernel
  obtain ⟨-, together⟩ := follow_walk holds .standard rule decision
  have route : (graph .standard rule).follow 1 [false, true] = ⟨[1, 3], some 4⟩ := by
    decide +kernel
  rw [answered, route] at together
  exact ⟨decision, answered, together⟩

end Flowchart

end RuleChart
