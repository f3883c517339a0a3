import RuleChart.Text.Quoted

namespace RuleChart

/-- What a drawing leaves out or cannot show as it was meant. -/
inductive Remark where
  | ignoredKeys (operator : String) (keys : List String)
  | depthCut (limit : Nat)
  | malformedNode (operator : String) (path : List String) (operands : Nat)
  | nodeChainCut (path : List String) (levels : Nat)
  | malformedBox (operator : String) (operands : Nat)
  | boxChainCut (decisions : Nat)
deriving DecidableEq, Repr

namespace Remark

/-- A path as it is told.  One that would show as nothing is told as the root's. -/
def place (path : List String) : String :=
  let shown := "/".intercalate path
  if shown = "" then "<root>" else shown

def message : Remark → String
  | .ignoredKeys operator keys =>
      "Operator " ++ Text.quoted operator ++ ": ignoring additional keys " ++ ", ".intercalate keys
  | .depthCut limit =>
      "Rule nested deeper than " ++ toString limit ++ " levels: cutting deeper subtrees"
  | .malformedNode operator path operands =>
      "Malformed " ++ Text.quoted operator ++ " at " ++ place path ++ ": " ++ toString operands ++
        " operand(s)"
  | .nodeChainCut path levels =>
      "Conditional chain at " ++ place path ++ " cut after " ++ toString levels ++ " levels"
  | .malformedBox operator operands =>
      "Malformed " ++ Text.quoted operator ++ ": " ++ toString operands ++ " operand(s)"
  | .boxChainCut decisions =>
      "Conditional chain cut after " ++ toString decisions ++ " decisions"

/-- The part of the program that makes the remark. -/
def topic : Remark → String
  | .ignoredKeys .. | .depthCut _ => "rulegraph.rules"
  | .malformedNode .. | .nodeChainCut .. => "rulegraph.tree.builder"
  | .malformedBox .. | .boxChainCut _ => "rulegraph.flowchart.emitter"

def line (remark : Remark) : String := remark.topic ++ ": " ++ remark.message

end Remark

end RuleChart
