import RuleChart.Rule.Basic

namespace RuleChart

/-- What an operator's name tells about how its operations are read and drawn. -/
inductive Family where
  | variable
  | conditional
  | comparison
  | conjunction
  | disjunction
  | negation
  | truth
  | membership
  | arithmetic
  | iteration
  | truncation
  | other
deriving DecidableEq, Repr

namespace Family

def ofName (name : String) : Family :=
  if name = "var" then .variable
  else if name = "if" ∨ name = "?:" then .conditional
  else if name ∈ ["==", "===", "!=", "!==", ">", ">=", "<", "<="] then .comparison
  else if name = "and" then .conjunction
  else if name = "or" then .disjunction
  else if name = "!" then .negation
  else if name = "!!" then .truth
  else if name = "in" then .membership
  else if name ∈ ["+", "-", "*", "/", "%"] then .arithmetic
  else if name ∈ ["map", "filter", "reduce", "all", "some", "none"] then .iteration
  else if name = "..." then .truncation
  else .other

end Family

namespace Rule

def operator? : Rule → Option String
  | .apply operator _ _ => some operator
  | .applyOne operator _ _ => some operator
  | _ => none

def family? (rule : Rule) : Option Family := rule.operator?.map Family.ofName

def isVariable (rule : Rule) : Bool := rule.family? = some .variable

def isConditional (rule : Rule) : Bool := rule.family? = some .conditional

/-- Simple rules read fine inside the label of another rule. -/
def isSimple (rule : Rule) : Bool := rule.isPrimitive || rule.isVariable

/-- A conditional that decides: it lists a condition and an outcome at least. -/
def isDecision : Rule → Bool
  | .apply operator (_ :: _ :: _) _ => Family.ofName operator = .conditional
  | _ => false

/-- Stands for whatever was cut off. -/
def truncated : Rule := .apply "..." [] []

end Rule

end RuleChart
