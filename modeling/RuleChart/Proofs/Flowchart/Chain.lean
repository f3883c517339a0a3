import RuleChart.Flowchart.Document
import RuleChart.Proofs.Flowchart.Subject
import RuleChart.Proofs.Rule.Chain

namespace RuleChart.Flowchart

open Rule (chain nested operandsOf)

variable {values : Bool} {operator : String} {default : Option Rule}

theorem outcome_conditional (link : Link) {value : Rule}
    (conditional : value.isConditional = true) (inside : Unit → Tree Box) :
    outcome link value inside = inside () := by
  rw [outcome, outcome?_of_conditional conditional]

theorem chart_decision (conditional : Family.ofName operator = .conditional) (opened : Nat)
    (link : Link) (condition value : Rule) (rest : List Rule) (keys : List String) :
    chart values opened link (.apply operator (condition :: value :: rest) keys) =
      .node (Box.decision link condition)
        (outcome .yes value (fun _ => chart values (opened + 1) .yes value) ::
          chartElse values (opened + 1) rest) := by
  simp only [chart, conditional]

theorem chartElse_pair (conditional : Family.ofName operator = .conditional) {opened : Nat}
    (room : opened < Rule.maxDepth) (condition value : Rule) (rest : List Rule) :
    chartElse values opened (condition :: value :: rest) =
      [chart values opened .no (.apply operator (condition :: value :: rest) [])] := by
  rw [chartElse, if_pos room, chart_decision conditional]

theorem chart_chain (conditional : Family.ofName operator = .conditional) {opened : Nat}
    (room : opened + 1 < Rule.maxDepth) (link : Link) (first next : Rule × Rule)
    (rest : List (Rule × Rule)) :
    chart values opened link (chain operator (first :: next :: rest) default) =
      .node (Box.decision link first.1)
        [outcome .yes first.2 (fun _ => chart values (opened + 1) .yes first.2),
          chart values (opened + 1) .no (chain operator (next :: rest) default)] := by
  simp only [chain, operandsOf]
  rw [chart_decision conditional, chartElse_pair conditional room]

theorem chart_nested (conditional : Family.ofName operator = .conditional) (opened : Nat)
    (link : Link) (first next : Rule × Rule) (rest : List (Rule × Rule)) :
    chart values opened link (nested operator first (next :: rest) default) =
      .node (Box.decision link first.1)
        [outcome .yes first.2 (fun _ => chart values (opened + 1) .yes first.2),
          chart values (opened + 1) .no (nested operator next rest default)] := by
  rw [nested, chart_decision conditional, chartElse,
    outcome_conditional .no (Rule.nested_conditional conditional next rest)]

/-- Inside of `opened` decisions, while there is room for one decision per pair. -/
theorem chart_chain_eq_nested (conditional : Family.ofName operator = .conditional)
    (opened : Nat) (link : Link) (first : Rule × Rule) (rest : List (Rule × Rule))
    (room : opened + rest.length < Rule.maxDepth) :
    chart values opened link (chain operator (first :: rest) default) =
      chart values opened link (nested operator first rest default) := by
  induction rest generalizing opened link first with
  | nil => rfl
  | cons next rest restIH =>
      simp only [List.length_cons] at room
      have deeper := restIH (opened + 1) .no next (by omega)
      rw [chart_chain conditional (by omega), chart_nested conditional, deeper]

/-- A chain of two pairs or more and its nested form have the same document, if the nested form
is not cut. -/
theorem document_chain_eq_nested {operator : String}
    (conditional : Family.ofName operator = .conditional) (first second : Rule × Rule)
    (rest : List (Rule × Rule)) (default : Option Rule)
    (fits : (nested operator first (second :: rest) default).fits Rule.maxDepth = true)
    (options : FlowchartOptions) :
    document options (chain operator (first :: second :: rest) default) =
      document options (nested operator first (second :: rest) default) := by
  have uncut := Rule.limitDepth_of_fits fits
  have uncutChain := Rule.limitDepth_of_fits (Rule.chain_fits first (second :: rest) fits)
  have room : 0 + (second :: rest).length < Rule.maxDepth := by
    rw [Nat.zero_add]
    exact Rule.length_lt_of_nested_fits first (second :: rest) fits
  rw [document, document, ofRule, ofRule, uncut, uncutChain,
    chart_chain_eq_nested conditional 0 .plain first (second :: rest) room]

/-- The value of the first pair is itself a chain, and the default a conditional. -/
theorem document_chain_eq_nested_of_three :
    let pair (name : String) (value : Rule) : Rule × Rule :=
      (.applyOne "var" (.string name) [], value)
    let inner := chain "if" [pair "x" .null, pair "y" (.bool true)] (some (.string "z"))
    let first := pair "a" inner
    let second := pair "b" (.list [.string "b|"])
    let rest := [pair "c" (.applyOne "var" (.string "c") [])]
    let default := some (Rule.apply "if" [.string "d"] [])
    let options := { FlowchartOptions.standard with direction := .lr, theme := some .dark }
    Family.ofName "?:" = .conditional ∧
      (nested "?:" first (second :: rest) default).fits Rule.maxDepth = true ∧
      document options (chain "?:" (first :: second :: rest) default) =
        document options (nested "?:" first (second :: rest) default) :=
  ⟨by decide, by decide, document_chain_eq_nested (by decide) _ _ _ _ (by decide) _⟩

end RuleChart.Flowchart
