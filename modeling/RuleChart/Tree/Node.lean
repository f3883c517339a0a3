import RuleChart.Rule.Json
import RuleChart.Tree.Basic

namespace RuleChart

inductive NodeKind where
  | operator
  | variable
  | literal
  | arrayLiteral
  | trueBranch
  | falseBranch
deriving DecidableEq, Repr, Inhabited

def NodeKind.name : NodeKind → String
  | .operator => "operator"
  | .variable => "variable"
  | .literal => "literal"
  | .arrayLiteral => "array_literal"
  | .trueBranch => "true_branch"
  | .falseBranch => "false_branch"

/-- A node of the drawn tree.  `raw` is the part of the rule it stands for, `path` the way to
that part from the root.  Branch leaves keep the kind they would have elsewhere in
`leafKind`; `result` is what an evaluator made of `raw`.  `x`, `y`, `width` and `height` tell where
it has been drawn before; a layout reads none of them, and puts its own box beside the node.
`highlighted` and `selected` are marks of whoever shows the tree. -/
structure Node where
  id : String
  kind : NodeKind
  label : String
  raw : Rule
  operator : Option String
  expanded : Bool
  parentId : Option String
  depth : Int
  path : List String
  leafKind : Option NodeKind
  result : Option Json
  x : Option Float := none
  y : Option Float := none
  width : Option Float := none
  height : Option Float := none
  highlighted : Bool := false
  selected : Bool := false
deriving Inhabited

def Node.isBranch (node : Node) : Bool := node.kind = .trueBranch || node.kind = .falseBranch

abbrev NodeTree := Tree Node

def NodeTree.isLeaf (tree : NodeTree) : Bool := tree.children.isEmpty

end RuleChart
