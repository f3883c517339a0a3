import RuleChart.Remark
import RuleChart.Rule.Depth

namespace RuleChart

namespace Rule

def keyRemark (operator : String) (keys : List String) : List Remark :=
  if keys.isEmpty then [] else [.ignoredKeys operator keys]

mutual

/-- One remark for each operation with extra keys, in preorder. -/
def keyRemarks : Rule → List Remark
  | .list items => keyRemarksAll items
  | .apply operator operands keys => keyRemark operator keys ++ keyRemarksAll operands
  | .applyOne operator operand keys => keyRemark operator keys ++ operand.keyRemarks
  | _ => []

def keyRemarksAll : List Rule → List Remark
  | [] => []
  | rule :: rest => rule.keyRemarks ++ keyRemarksAll rest

end

/-- The remark on a rule that `limitDepth` cuts. -/
def depthRemarks (rule : Rule) : List Remark :=
  if rule.fits maxDepth then [] else [.depthCut maxDepth]

end Rule

end RuleChart
