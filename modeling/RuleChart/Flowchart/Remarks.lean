import RuleChart.Flowchart.Chart
import RuleChart.Rule.Remarks

namespace RuleChart.Flowchart

/-- Only an outcome that does not end its branch can give rise to remarks. -/
def outcomeRemarks (value : Rule) (inside : Unit → List Remark) : List Remark :=
  if value.isConditional then inside () else []

mutual

/-- The remarks on `rule` inside of `opened` decisions. -/
def chartRemarks (values : Bool) (opened : Nat) (rule : Rule) : List Remark :=
  match rule with
  | .list items => if values then chartRemarksAll values opened items else []
  | .apply operator operands _ =>
      match Family.ofName operator, operands with
      | .variable, _ => []
      | .conditional, _ :: value :: rest =>
          outcomeRemarks value (fun _ => chartRemarks values (opened + 1) value) ++
            chartElseRemarks values (opened + 1) rest
      | .conditional, operands =>
          .malformedBox operator operands.length :: chartRemarksAll values (opened + 1) operands
      | _, operands => chartRemarksAll values opened operands
  | .applyOne operator operand _ =>
      match Family.ofName operator with
      | .variable => []
      | .conditional => .malformedBox operator 1 :: chartRemarks values (opened + 1) operand
      | _ => chartRemarks values opened operand
  | _ => []

def chartRemarksAll (values : Bool) (opened : Nat) : List Rule → List Remark
  | [] => []
  | rule :: rest => chartRemarks values opened rule ++ chartRemarksAll values opened rest

/-- The remarks on the no side of the innermost of `opened` decisions. -/
def chartElseRemarks (values : Bool) (opened : Nat) : List Rule → List Remark
  | [] => []
  | [value] => outcomeRemarks value (fun _ => chartRemarks values opened value)
  | _ :: value :: rest =>
      if opened < Rule.maxDepth then
        outcomeRemarks value (fun _ => chartRemarks values (opened + 1) value) ++
          chartElseRemarks values (opened + 1) rest
      else [.boxChainCut Rule.maxDepth]

end

/-- All remarks on the flowchart of a rule. -/
def remarks (values : Bool) (rule : Rule) : List Remark :=
  rule.keyRemarks ++ rule.depthRemarks ++
    chartRemarks values 0 (rule.limitDepth Rule.maxDepth)

end RuleChart.Flowchart
