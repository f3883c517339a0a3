import RuleChart.Label.Basic
import RuleChart.Json.Printer
import RuleChart.Remark
import RuleChart.Rule.Depth
import RuleChart.Tree.Node

namespace RuleChart

/-! The tree of a rule before its nodes have ids, places and label texts.

A decision node stands for a conditional: its outcomes are its children.  A conditional with
more than two operands behind the condition is a chain, and each pair of them becomes a
decision of its own in the else position of the one before.  Of other operations only the
operands that do not read well inline become children.
-/

/-- The label of a node, as far as the rule alone decides it. -/
inductive Caption where
  | fixed (text : String)
  | labelled (rule : Rule)
  | reference (path : Rule)

/-- What a node cannot show as it was meant: a conditional that lacks operands, or the rest of a
chain that is cut. -/
inductive Loss where
  | operands (operator : String) (count : Nat)
  | chainRest

/-- The remark on a node at `path`, right below the one at `above`. -/
def Loss.remark (above path : List String) : Loss → Remark
  | .operands operator count => .malformedNode operator path count
  | .chainRest => .nodeChainCut above Rule.maxDepth

/-- A node before it is placed.  `step` leads to it from its parent; from depth `foldDepth`
on it starts out collapsed. -/
structure Sketch (κ : Type) where
  step : List String
  caption : κ
  kind : NodeKind
  raw : Rule
  operator : Option String
  foldDepth : Option Nat
  leafKind : Option NodeKind
  loss : Option Loss := none

namespace Sketch

def currentItem : String := "(current item)"

def malformedLabel : String := "IF ?"

def arrayFoldDepth : Nat := 3

def operatorFoldDepth : Nat := 4

def segment (index : Nat) : String := "[" ++ toString index ++ "]"

def referenceText (path : String) : String := if path = "" then currentItem else "$" ++ path

def literal (step : List String) (caption : Caption) (raw : Rule) : Sketch Caption :=
  { step, caption, kind := .literal, raw, operator := none, foldDepth := none, leafKind := none }

def array (step : List String) (items : List Rule) : Sketch Caption :=
  { step
    caption := .fixed (Label.itemsSummary items.length)
    kind := .arrayLiteral
    raw := .list items
    operator := none
    foldDepth := some arrayFoldDepth
    leafKind := none }

/-- A path that is itself computed is shown by its label. -/
def variableCaption (operands : List Rule) : Caption :=
  match operands with
  | [] => .fixed currentItem
  | path :: _ =>
      match Label.writtenPath? path with
      | some written => .fixed (referenceText written)
      | none => .reference path

def variableNode (step : List String) (operator : String) (raw : Rule) : Sketch Caption :=
  { step
    caption := variableCaption raw.children
    kind := .variable
    raw
    operator := some operator
    foldDepth := none
    leafKind := none }

/-- The default of a variable is written out as JSON. -/
def defaultLeaf (operator : String) (value : Rule) : Sketch Caption :=
  literal [operator, segment 1] (.fixed ("default: " ++ value.toJson.compact)) value

def operation (step : List String) (operator : String) (raw : Rule) : Sketch Caption :=
  { step
    caption := .labelled raw
    kind := .operator
    raw
    operator := some operator
    foldDepth := some operatorFoldDepth
    leafKind := none }

def decision (step : List String) (operator : String) (raw condition : Rule) : Sketch Caption :=
  { step
    caption := .labelled condition
    kind := .operator
    raw
    operator := some operator
    foldDepth := none
    leafKind := none }

def malformed (step : List String) (operator : String) (raw : Rule) : Sketch Caption :=
  { step
    caption := .fixed malformedLabel
    kind := .operator
    raw
    operator := some operator
    foldDepth := none
    leafKind := none
    loss := some (.operands operator raw.children.length) }

/-- What an outcome would be as a node of its own, if it ends its branch. -/
def leafOutcome? (value : Rule) : Option (NodeKind × Caption) :=
  match value with
  | .list items => some (.arrayLiteral, .fixed (Label.itemsSummary items.length))
  | .apply .. | .applyOne .. =>
      if value.isVariable then some (.variable, variableCaption value.children) else none
  | _ => some (.literal, .labelled value)

/-- The node of an outcome: a leaf of its side, or the tree that `inside` makes of it. -/
def outcome (side : Bool) (step : List String) (value : Rule)
    (inside : Unit → Tree (Sketch Caption)) : Tree (Sketch Caption) :=
  match leafOutcome? value with
  | some (leafKind, caption) =>
      .node
        { step
          caption
          kind := if side then .trueBranch else .falseBranch
          raw := value
          operator := value.operator?
          foldDepth := none
          leafKind := some leafKind }
        []
  | none => inside ()

/-- Stands where a chain was cut. -/
def cutNode : Sketch Caption :=
  { operation ["else"] Label.ellipsis Rule.truncated with loss := some .chainRest }

def cutLeaf : Tree (Sketch Caption) := .node cutNode []

section Plan

variable {δ : Type} [Add δ] [OfNat δ 1] [LT δ] [DecidableLT δ]

mutual

/-- The sketch of `rule`, which stands at `depth`.  A chain goes on down to the depth `limit` and is
cut there.  From where the two depths are counted makes no difference. -/
def plan (limit depth : δ) (step : List String) (rule : Rule) : Tree (Sketch Caption) :=
  match rule with
  | .list items => .node (array step items) (planItems limit (depth + 1) 0 items)
  | .apply operator operands keys =>
      match Family.ofName operator, operands with
      | .variable, _ :: value :: _ =>
          .node (variableNode step operator (.apply operator operands keys))
            [.node (defaultLeaf operator value) []]
      | .variable, _ =>
          .node (variableNode step operator (.apply operator operands keys)) []
      | .conditional, condition :: value :: rest =>
          .node (decision step operator (.apply operator operands keys) condition)
            (outcome true ["then"] value (fun _ => plan limit (depth + 1) ["then"] value) ::
              planElse limit (depth + 1) operator rest)
      | .conditional, operands =>
          .node (malformed step operator (.apply operator operands keys))
            (planOperands limit (depth + 1) operator 0 operands)
      | _, operands =>
          .node (operation step operator (.apply operator operands keys))
            (planOperands limit (depth + 1) operator 0 operands)
  | .applyOne operator operand keys =>
      match Family.ofName operator with
      | .variable => .node (variableNode step operator (.applyOne operator operand keys)) []
      | .conditional =>
          .node (malformed step operator (.applyOne operator operand keys))
            (if operand.isSimple then []
              else [plan limit (depth + 1) [operator, segment 0] operand])
      | _ =>
          .node (operation step operator (.applyOne operator operand keys))
            (if operand.isSimple then [] else [plan limit (depth + 1) [operator] operand])
  | primitive => .node (literal step (.labelled primitive) primitive) []

def planItems (limit depth : δ) (index : Nat) : List Rule → List (Tree (Sketch Caption))
  | [] => []
  | item :: rest => plan limit depth [segment index] item :: planItems limit depth (index + 1) rest

/-- Simple operands get no node, but keep their index. -/
def planOperands (limit depth : δ) (operator : String) (index : Nat) :
    List Rule → List (Tree (Sketch Caption))
  | [] => []
  | operand :: rest =>
      if operand.isSimple then planOperands limit depth operator (index + 1) rest
      else
        plan limit depth [operator, segment index] operand ::
          planOperands limit depth operator (index + 1) rest

/-- The else side at `depth`, for the operands behind an outcome. -/
def planElse (limit depth : δ) (operator : String) : List Rule → List (Tree (Sketch Caption))
  | [] => []
  | [value] => [outcome false ["else"] value (fun _ => plan limit depth ["else"] value)]
  | condition :: value :: rest =>
      if depth < limit then
        [.node
          (decision ["else"] operator (.apply operator (condition :: value :: rest) []) condition)
          (outcome true ["then"] value (fun _ => plan limit (depth + 1) ["then"] value) ::
            planElse limit (depth + 1) operator rest)]
      else [cutLeaf]

end

end Plan

end Sketch

end RuleChart
