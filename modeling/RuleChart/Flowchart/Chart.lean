import RuleChart.Flowchart.Condition
import RuleChart.Rule.Depth
import RuleChart.Tree.Basic

namespace RuleChart.Flowchart

inductive Shape where
  | terminator
  | parallelogram
  | subroutine
  | diamond
  | hexagon
  | rectangle
deriving DecidableEq, Repr

inductive Style where
  | condition
  | result
  | variable
  | operator
deriving DecidableEq, Repr

/-- What an edge says: nothing, or which way a decision went. -/
inductive Link where
  | plain
  | yes
  | no
deriving DecidableEq, Repr

structure Box where
  link : Link
  shape : Shape
  text : String
  style : Option Style
deriving DecidableEq, Repr

namespace Box

def primitive (link : Link) (rule : Rule) : Box :=
  { link, shape := .terminator, text := ofPrimitive rule, style := none }

def array (link : Link) : Box :=
  { link, shape := .subroutine, text := "Array", style := none }

def variableReference (link : Link) (operands : List Rule) : Box :=
  { link, shape := .parallelogram, text := variableName operands, style := none }

def decision (link : Link) (condition : Rule) : Box :=
  { link, shape := .diamond, text := conditionText condition, style := some .condition }

def malformed (link : Link) : Box :=
  { link, shape := .diamond, text := "IF ?", style := some .condition }

/-- Comparisons and logical connections are hexagons. -/
def operation (link : Link) (operator : String) : Box :=
  let shape := match Family.ofName operator with
    | .comparison | .conjunction | .disjunction => Shape.hexagon
    | _ => .rectangle
  { link, shape, text := operator, style := some .operator }

/-- The JSON text of a list in a result is cut to this length. -/
def resultJsonLength : Nat := 30

def resultText (value : Rule) : String :=
  match value with
  | .list items =>
      String.ofList ((Rule.list items).toJson.compactChars.take resultJsonLength)
  | .apply .. | .applyOne .. => conditionText value
  | primitive => ofPrimitive primitive

def result (link : Link) (value : Rule) : Box :=
  { link, shape := .terminator, text := resultText value, style := some .result }

/-- The box of an outcome that ends its branch; only conditionals do not. -/
def outcome? (link : Link) (value : Rule) : Option Box :=
  if value.isConditional then none
  else if value.isVariable then
    some { variableReference link value.children with style := some .variable }
  else some (result link value)

end Box

/-- The outcome that `link` leads to: one box, or the chart that `inside` makes of it. -/
def outcome (link : Link) (value : Rule) (inside : Unit → Tree Box) : Tree Box :=
  match Box.outcome? link value with
  | some box => .node box []
  | none => inside ()

mutual

/-- The chart of a rule inside of `opened` decisions.  `values` tells whether the items of
lists are drawn. -/
def chart (values : Bool) (opened : Nat) (link : Link) (rule : Rule) : Tree Box :=
  match rule with
  | .list items =>
      .node (Box.array link) (if values then chartAll values opened items else [])
  | .apply operator operands _ =>
      match Family.ofName operator, operands with
      | .variable, operands => .node (Box.variableReference link operands) []
      | .conditional, condition :: value :: rest =>
          .node (Box.decision link condition)
            (outcome .yes value (fun _ => chart values (opened + 1) .yes value) ::
              chartElse values (opened + 1) rest)
      | .conditional, operands =>
          .node (Box.malformed link) (chartAll values (opened + 1) operands)
      | _, operands => .node (Box.operation link operator) (chartAll values opened operands)
  | .applyOne operator operand _ =>
      match Family.ofName operator with
      | .variable => .node (Box.variableReference link [operand]) []
      | .conditional =>
          .node (Box.malformed link) [chart values (opened + 1) .plain operand]
      | _ => .node (Box.operation link operator) [chart values opened .plain operand]
  | primitive => .node (Box.primitive link primitive) []

def chartAll (values : Bool) (opened : Nat) : List Rule → List (Tree Box)
  | [] => []
  | rule :: rest => chart values opened .plain rule :: chartAll values opened rest

/-- The no side of the innermost of `opened` decisions, for the operands behind its
outcome.  The next pair of a chain is a decision inside of it. -/
def chartElse (values : Bool) (opened : Nat) : List Rule → List (Tree Box)
  | [] => []
  | [value] => [outcome .no value (fun _ => chart values opened .no value)]
  | condition :: value :: rest =>
      if opened < Rule.maxDepth then
        [.node (Box.decision .no condition)
          (outcome .yes value (fun _ => chart values (opened + 1) .yes value) ::
            chartElse values (opened + 1) rest)]
      else [.node (Box.result .no Rule.truncated) []]

end

/-- The chart of a rule cut at the nesting limit. -/
def ofRule (values : Bool) (rule : Rule) : Tree Box :=
  chart values 0 .plain (rule.limitDepth Rule.maxDepth)

end RuleChart.Flowchart
