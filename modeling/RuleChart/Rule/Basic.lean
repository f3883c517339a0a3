import RuleChart.Number

namespace RuleChart

/-- An expression shaped like a JSON value, in which an object applies the operator named by its
first key.  An operation has either a list of operands (`apply`) or one operand that is not
written as a list (`applyOne`).  The further keys of its object mean nothing and are only
kept. -/
inductive Rule where
  | null
  | bool (value : Bool)
  | number (value : Number)
  | string (value : String)
  | list (items : List Rule)
  | emptyObject
  | apply (operator : String) (operands : List Rule) (extraKeys : List String)
  | applyOne (operator : String) (operand : Rule) (extraKeys : List String)

namespace Rule

instance : Inhabited Rule := ⟨.null⟩

def isPrimitive : Rule → Bool
  | .list _ | .apply .. | .applyOne .. => false
  | _ => true

/-- The items of a list, the operands of an operation. -/
def children : Rule → List Rule
  | .list items => items
  | .apply _ operands _ => operands
  | .applyOne _ operand _ => [operand]
  | _ => []

mutual

def same : Rule → Rule → Bool
  | .null, .null => true
  | .bool left, .bool right => left == right
  | .number left, .number right => left == right
  | .string left, .string right => left == right
  | .list left, .list right => sameAll left right
  | .emptyObject, .emptyObject => true
  | .apply operator operands keys, .apply operator' operands' keys' =>
      operator == operator' && (sameAll operands operands' && keys == keys')
  | .applyOne operator operand keys, .applyOne operator' operand' keys' =>
      operator == operator' && (operand.same operand' && keys == keys')
  | _, _ => false

def sameAll : List Rule → List Rule → Bool
  | [], [] => true
  | left :: lefts, right :: rights => left.same right && sameAll lefts rights
  | _, _ => false

end

mutual

theorem same_iff (left right : Rule) : left.same right = true ↔ left = right := by
  cases left <;> cases right <;> simp [same, sameAll_iff]
  case applyOne.applyOne => rw [same_iff]; simp

theorem sameAll_iff (left right : List Rule) : sameAll left right = true ↔ left = right := by
  match left, right with
  | [], [] => simp [sameAll]
  | [], _ :: _ => simp [sameAll]
  | _ :: _, [] => simp [sameAll]
  | left :: lefts, right :: rights => simp [sameAll, same_iff left, sameAll_iff lefts]

end

instance : DecidableEq Rule := fun left right => decidable_of_iff _ (same_iff left right)

mutual

/-- Every number replaced by the representative of its value. -/
def canonical : Rule → Rule
  | .number value => .number value.canonical
  | .list items => .list (canonicalAll items)
  | .apply operator operands keys => .apply operator (canonicalAll operands) keys
  | .applyOne operator operand keys => .applyOne operator operand.canonical keys
  | rule => rule

def canonicalAll : List Rule → List Rule
  | [] => []
  | rule :: rest => rule.canonical :: canonicalAll rest

end

end Rule

end RuleChart
