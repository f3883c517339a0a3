import RuleChart.Json.Printer
import RuleChart.Label.Basic
import RuleChart.Rule.Json

namespace RuleChart.Flowchart

def emptyObjectText : String := "(empty)"

/-- The name of a variable without a path. -/
def dataName : String := "data"

def ofPrimitive (rule : Rule) : String :=
  match rule with
  | .emptyObject => emptyObjectText
  | rule => rule.label false

def variableName (operands : List Rule) : String :=
  match operands with
  | [] => dataName
  | path :: _ =>
      match Label.writtenPath? path with
      | some written => if written = "" then dataName else written
      | none => path.label true

/-- An operation of which only the operator is shown. -/
def operatorText (operator : String) : String :=
  match Family.ofName operator with
  | .truncation => Label.ellipsis
  | _ => operator ++ "(...)"

def operandText (rule : Rule) : String :=
  match rule with
  | .string value => "'" ++ value ++ "'"
  | .list items => Label.itemsSummary items.length
  | .apply operator operands _ =>
      if Family.ofName operator = .variable then variableName operands
      else operatorText operator
  | .applyOne operator operand _ =>
      if Family.ofName operator = .variable then variableName [operand]
      else operatorText operator
  | primitive => ofPrimitive primitive

mutual

/-- A condition as it reads: logical operators spelled out, comparisons inline. -/
def conditionText : Rule → String
  | .string value => value
  | .list items => (Rule.list items).toJson.compact
  | .apply operator operands _ =>
      match Family.ofName operator, operands with
      | .comparison, left :: right :: _ =>
          operandText left ++ " " ++ operator ++ " " ++ operandText right
      | .membership, left :: right :: _ => operandText left ++ " in " ++ operandText right
      | .conjunction, first :: rest =>
          " AND ".intercalate (conditionText first :: conditionTexts rest)
      | .disjunction, first :: rest =>
          " OR ".intercalate (conditionText first :: conditionTexts rest)
      | .negation, [] => "NOT ?"
      | .negation, operand :: _ => "NOT " ++ conditionText operand
      | .truth, [] => "BOOL ?"
      | .truth, operand :: _ => "BOOL " ++ conditionText operand
      | .variable, operands => variableName operands
      | _, _ => operatorText operator
  | .applyOne operator operand _ =>
      match Family.ofName operator with
      | .negation => "NOT " ++ conditionText operand
      | .truth => "BOOL " ++ conditionText operand
      | .variable => variableName [operand]
      | _ => operatorText operator
  | primitive => ofPrimitive primitive

def conditionTexts : List Rule → List String
  | [] => []
  | rule :: rest => conditionText rule :: conditionTexts rest

end

end RuleChart.Flowchart
