import RuleChart.Rule.Family

namespace RuleChart

namespace Label

/-- Rules nested deeper than this in one label are left out. -/
def maxDepth : Nat := 16

/-- Longer lists are only counted. -/
def maxInlineItems : Nat := 3

def ellipsis : String := "..."

/-- The element that an iteration stands at. -/
def currentItem : String := "(item)"

def itemsSummary (count : Nat) : String := "[" ++ toString count ++ " items]"

/-- The path of a variable, when it is written out in the rule. -/
def writtenPath? : Rule → Option String
  | .string path => some path
  | .number path => some path.labelText
  | .null => some ""
  | _ => none

def referenceLabel (path : String) : String :=
  if path = "" then currentItem else "$" ++ path

end Label

namespace Rule

open Label

mutual

/-- The label of a rule that stands `depth` levels inside another label. -/
def labelAt (compact : Bool) (depth : Nat) (rule : Rule) : String :=
  if maxDepth < depth then ellipsis
  else
    match rule with
    | .null => "null"
    | .bool true => "true"
    | .bool false => "false"
    | .number value => value.labelText
    | .string value => "\"" ++ value ++ "\""
    | .emptyObject => "\x7b\x7d"
    | .list items =>
        if compact || decide (maxInlineItems < items.length) then itemsSummary items.length
        else "[" ++ ", ".intercalate (labelsAt (depth + 1) items) ++ "]"
    | .apply operator operands _ =>
        match Family.ofName operator, operands with
        | .truncation, _ => ellipsis
        | .variable, [] => currentItem
        | .variable, path :: _ =>
            match writtenPath? path with
            | some written => referenceLabel written
            | none => path.labelAt true (depth + 1)
        | .comparison, left :: right :: _ =>
            left.labelAt true (depth + 1) ++ " " ++ operator ++ " " ++
              right.labelAt true (depth + 1)
        | .conjunction, first :: rest =>
            " AND ".intercalate (first.labelAt true (depth + 1) :: labelsAt (depth + 1) rest)
        | .disjunction, first :: rest =>
            " OR ".intercalate (first.labelAt true (depth + 1) :: labelsAt (depth + 1) rest)
        | .negation, [] => "NOT ?"
        | .negation, operand :: _ => "NOT " ++ operand.labelAt true (depth + 1)
        | .truth, [] => "BOOL ?"
        | .truth, operand :: _ => "BOOL " ++ operand.labelAt true (depth + 1)
        | .membership, needle :: .list items :: _ =>
            needle.labelAt true (depth + 1) ++ " in " ++ itemsSummary items.length
        | .membership, needle :: haystack :: _ =>
            needle.labelAt true (depth + 1) ++ " in " ++ haystack.labelAt true (depth + 1)
        | .arithmetic, first :: rest =>
            (" " ++ operator ++ " ").intercalate
              (first.labelAt true (depth + 1) :: labelsAt (depth + 1) rest)
        | .iteration, _ => operator.toUpper ++ "(...)"
        | _, _ => operator ++ "(...)"
    | .applyOne operator operand _ =>
        match Family.ofName operator with
        | .truncation => ellipsis
        | .variable =>
            match writtenPath? operand with
            | some written => referenceLabel written
            | none => operand.labelAt true (depth + 1)
        | .negation => "NOT " ++ operand.labelAt true (depth + 1)
        | .truth => "BOOL " ++ operand.labelAt true (depth + 1)
        | .iteration => operator.toUpper ++ "(...)"
        | _ => operator ++ "(...)"

def labelsAt (depth : Nat) : List Rule → List String
  | [] => []
  | rule :: rest => rule.labelAt true depth :: labelsAt depth rest

end

/-- `compact` counts the items of a list, however few they are.  Inside another label
every list is counted. -/
def label (compact : Bool) (rule : Rule) : String := rule.labelAt compact 0

end Rule

end RuleChart
