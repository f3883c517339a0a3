import RuleChart.Proofs.Flowchart.Pruning

namespace RuleChart

/-- The same options, with or without the items of lists. -/
def FlowchartOptions.withValues (values : Bool) (options : FlowchartOptions) : FlowchartOptions :=
  { options with includeValues := values }

namespace Flowchart

namespace Box

def isArray (box : Box) : Bool := box.shape = .subroutine

theorem operation_not_array (link : Link) (operator : String) :
    (operation link operator).isArray = false := by
  unfold operation isArray
  dsimp only
  split <;> rfl

end Box

open Box (isArray)

theorem outcome_pruned (link : Link) (value : Rule) (inside : Tree Box) :
    (outcome link value (fun _ => inside)).pruned isArray =
      outcome link value (fun _ => inside.pruned isArray) := by
  unfold outcome
  split
  · simp [Tree.pruned, Tree.prunedAll]
  · rfl

mutual

theorem chart_pruned (opened : Nat) (link : Link) (rule : Rule) :
    (chart true opened link rule).pruned isArray = chart false opened link rule := by
  match rule with
  | .null | .bool _ | .number _ | .string _ | .emptyObject => rfl
  | .list items => rfl
  | .applyOne operator operand keys =>
      have own := chart_pruned opened .plain operand
      have deeper := chart_pruned (opened + 1) .plain operand
      simp only [chart]
      cases Family.ofName operator with
      | «variable» => rfl
      | conditional => simp [Tree.pruned, Tree.prunedAll, Box.malformed, isArray, deeper]
      | _ => simp [Tree.pruned, Tree.prunedAll, Box.operation_not_array, own]
  | .apply operator operands keys =>
      rw [chart.eq_def, chart.eq_def]
      dsimp only
      cases Family.ofName operator with
      | «variable» => rfl
      | conditional =>
          match operands with
          | [] | [_] =>
              simp [Tree.pruned, Box.malformed, isArray, chartAll_pruned (opened + 1)]
          | condition :: value :: rest =>
              simp [Tree.pruned, Tree.prunedAll, Box.decision, isArray, outcome_pruned,
                chart_pruned (opened + 1) .yes value, chartElse_pruned (opened + 1) rest]
      | _ => simp [Tree.pruned, Box.operation_not_array, chartAll_pruned opened operands]

theorem chartAll_pruned (opened : Nat) (rules : List Rule) :
    Tree.prunedAll isArray (chartAll true opened rules) = chartAll false opened rules := by
  match rules with
  | [] => rfl
  | rule :: rest =>
      simp only [chartAll, Tree.prunedAll, chart_pruned opened .plain rule,
        chartAll_pruned opened rest]

theorem chartElse_pruned (opened : Nat) (operands : List Rule) :
    Tree.prunedAll isArray (chartElse true opened operands) = chartElse false opened operands := by
  match operands with
  | [] => rfl
  | [value] =>
      simp only [chartElse, Tree.prunedAll, outcome_pruned, chart_pruned opened .no value]
  | condition :: value :: rest =>
      rw [chartElse, chartElse]
      split
      · simp [Tree.pruned, Tree.prunedAll, Box.decision, isArray, outcome_pruned,
          chart_pruned (opened + 1) .yes value, chartElse_pruned (opened + 1) rest]
      · rfl

end

/-- Whether a box is declared as an array.  Its label is cut like any other, so it is whole from a
limit of five characters on. -/
def Declared.IsArray (limit : Int) (declared : Declared) : Prop :=
  declared.shape = .subroutine ∧ declared.label = String.ofList ("Array".toList.take limit.toNat)

theorem inner_of_array {link : Link} {rule : Rule} (array : (Box.inner link rule).isArray = true) :
    Box.inner link rule = Box.array link := by
  cases rule with
  | list items => rfl
  | null | bool | number | string | emptyObject => cases array
  | apply operator operands keys =>
      unfold Box.inner at array
      dsimp only at array
      split at array
      · cases array
      · cases array
      · cases array
      · rw [Box.operation_not_array] at array
        cases array
  | applyOne operator operand keys =>
      unfold Box.inner at array
      dsimp only at array
      split at array
      · cases array
      · cases array
      · rw [Box.operation_not_array] at array
        cases array

theorem outcome?_not_array {link : Link} {value : Rule} {box : Box}
    (found : Box.outcome? link value = some box) : box.isArray = false := by
  unfold Box.outcome? at found
  split at found
  · cases found
  · split at found
    · cases found
      rfl
    · cases found
      rfl

theorem Subject.box_of_array {subject : Subject} (array : subject.box.isArray = true) :
    subject.box = Box.array subject.link := by
  obtain ⟨link, rule⟩ := subject
  by_cases plain : link = .plain
  · subst plain
    exact inner_of_array array
  · rw [box_eq_outcome plain] at array ⊢
    cases found : Box.outcome? link rule with
    | none =>
        rw [found] at array
        exact inner_of_array array
    | some box =>
        rw [found, Option.getD_some, outcome?_not_array found] at array
        cases array

theorem escapeLabel_array {limit : Int} (positive : 0 < limit) :
    escapeLabel limit "Array" = String.ofList ("Array".toList.take limit.toNat) := by
  have plain : ∀ c ∈ "Array".toList, escapedChar c = [c] := by
    simp [escapedChar, isControl]
  have cut : ∀ c ∈ "Array".toList.take limit.toNat, escapedChar c = [c] :=
    fun c member => plain c (List.mem_of_mem_take member)
  rw [escapeLabel, slice, if_pos (Int.le_of_lt positive), List.flatMap_congr cut]
  exact congrArg String.ofList (List.flatMap_singleton' _)

theorem closes_arrays {limit : Int} (positive : 0 < limit) (values : Bool) (rule : Rule) :
    Graph.Closes limit (ofRule values rule) (Declared.IsArray limit) isArray := by
  intro entry present
  rw [numbered_ofRule, Tree.preorder_map] at present
  obtain ⟨⟨number, subject⟩, -, rfl⟩ := List.mem_map.mp present
  constructor
  · exact fun array => decide_eq_true array.1
  · intro array
    rw [Subject.box_of_array array]
    exact ⟨rfl, escapeLabel_array positive⟩

/-- Without the items of lists, a document has the lines of the full one for all that does not lie
below an array, in their order and with the boxes numbered anew. -/
theorem document_without_items (options : FlowchartOptions) (rule : Rule) :
    let full := graph (options.withValues true) rule
    let left := (full.withoutCovered (Declared.IsArray options.maxLabelLength)).renumbered
    document (options.withValues true) rule =
        "\n".intercalate (headerLines options ++ full.lines) ∧
      document (options.withValues false) rule =
        "\n".intercalate (headerLines options ++ left.lines) := by
  intro full left
  have chart : (ofRule true rule).pruned isArray = ofRule false rule := chart_pruned 0 .plain _
  have pruned : graph (options.withValues false) rule = left := by
    have same := Graph.ofChart_pruned (closes_arrays options.maxLabelLength_pos true rule)
    rw [chart] at same
    dsimp only [left, full]
    rw [graph_eq_ofChart, graph_eq_ofChart]
    exact same
  refine ⟨document_eq_graph _ rule, ?_⟩
  rw [← pruned]
  exact document_eq_graph _ rule

end Flowchart

end RuleChart
