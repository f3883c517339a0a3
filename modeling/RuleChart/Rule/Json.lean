import RuleChart.Json.Basic
import RuleChart.Rule.Basic
import RuleChart.Traversal

namespace RuleChart

/-- A container whose parts are still to be converted. -/
inductive RuleFrame where
  | list
  | listed (operator : String) (extraKeys : List String)
  | single (operator : String) (extraKeys : List String)

namespace RuleFrame

/-- A single operand is always there when its operation is closed. -/
def close : RuleFrame → List Rule → Rule
  | .list, items => .list items
  | .listed operator keys, operands => .apply operator operands keys
  | .single operator keys, [operand] => .applyOne operator operand keys
  | .single operator keys, operands => .apply operator operands keys

def closeJson : RuleFrame → List Json → Json
  | .list, items => .array items
  | .listed operator _, operands => .object [(operator, .array operands)]
  | .single operator _, [operand] => .object [(operator, operand)]
  | .single operator _, operands => .object [(operator, .array operands)]

end RuleFrame

namespace Json

mutual

def size : Json → Nat
  | .array items => itemsSize items + 1
  | .object fields => fieldsSize fields + 1
  | _ => 1

def itemsSize : List Json → Nat
  | [] => 0
  | item :: rest => item.size + 1 + itemsSize rest

def fieldsSize : List (String × Json) → Nat
  | [] => 0
  | (_, value) :: rest => value.size + 1 + fieldsSize rest

end

theorem itemsSize_eq_combined (items : List Json) :
    itemsSize items = combinedWeight size items := by
  induction items with
  | nil => rfl
  | cons item rest restIH => simp [itemsSize, combinedWeight, restIH]

end Json

namespace Rule

mutual

def weight : Rule → Nat
  | .list items => weights items + 1
  | .apply _ operands _ => weights operands + 1
  | .applyOne _ operand _ => operand.weight + 2
  | _ => 1

def weights : List Rule → Nat
  | [] => 0
  | rule :: rest => rule.weight + 1 + weights rest

end

theorem weights_eq_combined (rules : List Rule) :
    weights rules = combinedWeight weight rules := by
  induction rules with
  | nil => rfl
  | cons rule rest restIH => simp [weights, combinedWeight, restIH]

/-- The first key of an object names the operator, the others are kept by name only. -/
def reveal : Json → Opened Json RuleFrame Rule
  | .null => .done .null
  | .bool value => .done (.bool value)
  | .number value => .done (.number value)
  | .string value => .done (.string value)
  | .array items => .pending .list items
  | .object [] => .done .emptyObject
  | .object ((operator, .array operands) :: others) =>
      .pending (.listed operator (others.map Prod.fst)) operands
  | .object ((operator, operand) :: others) =>
      .pending (.single operator (others.map Prod.fst)) [operand]

def reading : Traversal Json RuleFrame Rule where
  reveal := reveal
  close := RuleFrame.close
  weight := Json.size
  lighter := by
    intro item frame parts revealed
    unfold reveal at revealed
    split at revealed <;> cases revealed <;>
      simp only [Json.size, Json.fieldsSize, Json.itemsSize_eq_combined, combinedWeight] <;> omega

def ofJson (value : Json) : Rule := reading.apply value

/-- The parts of a rule that become JSON values of their own. -/
def revealParts : Rule → Opened Rule RuleFrame Json
  | .null => .done .null
  | .bool value => .done (.bool value)
  | .number value => .done (.number value)
  | .string value => .done (.string value)
  | .emptyObject => .done (.object [])
  | .list items => .pending .list items
  | .apply operator operands keys => .pending (.listed operator keys) operands
  | .applyOne operator operand keys => .pending (.single operator keys) [operand]

def writing : Traversal Rule RuleFrame Json where
  reveal := revealParts
  close := RuleFrame.closeJson
  weight := weight
  lighter := by
    intro item frame parts revealed
    unfold revealParts at revealed
    split at revealed <;> cases revealed <;> simp [weight, weights_eq_combined, combinedWeight]

/-- The JSON value of a rule, without extra keys. -/
def toJson (rule : Rule) : Json := writing.apply rule

mutual

/-- `ofJson` as a recursion on the value. -/
def read : Json → Rule
  | .null => .null
  | .bool value => .bool value
  | .number value => .number value
  | .string value => .string value
  | .array items => .list (readAll items)
  | .object [] => .emptyObject
  | .object ((operator, .array operands) :: others) =>
      .apply operator (readAll operands) (others.map Prod.fst)
  | .object ((operator, operand) :: others) =>
      .applyOne operator (read operand) (others.map Prod.fst)

def readAll : List Json → List Rule
  | [] => []
  | item :: rest => read item :: readAll rest

end

mutual

/-- `toJson` as a recursion on the rule. -/
def write : Rule → Json
  | .null => .null
  | .bool value => .bool value
  | .number value => .number value
  | .string value => .string value
  | .emptyObject => .object []
  | .list items => .array (writeAll items)
  | .apply operator operands _ => .object [(operator, .array (writeAll operands))]
  | .applyOne operator operand _ => .object [(operator, operand.write)]

def writeAll : List Rule → List Json
  | [] => []
  | rule :: rest => rule.write :: writeAll rest

end

theorem readAll_eq_map (items : List Json) : readAll items = items.map read := by
  induction items with
  | nil => rfl
  | cons item rest restIH => simp [readAll, restIH]

theorem writeAll_eq_map (rules : List Rule) : writeAll rules = rules.map write := by
  induction rules with
  | nil => rfl
  | cons rule rest restIH => simp [writeAll, restIH]

theorem ofJson_eq_read (value : Json) : ofJson value = read value := by
  rw [ofJson, Traversal.apply_eq_meaning]
  refine reading.meaning_unique read ?_ ?_ value
  · intro item result revealed
    simp only [reading] at revealed
    unfold reveal at revealed
    split at revealed <;> cases revealed <;> rfl
  · intro item frame parts revealed
    simp only [reading] at revealed ⊢
    unfold reveal at revealed
    split at revealed <;> cases revealed <;>
      simp_all [read, RuleFrame.close, readAll_eq_map]

theorem toJson_eq_write (rule : Rule) : rule.toJson = rule.write := by
  rw [toJson, Traversal.apply_eq_meaning]
  refine writing.meaning_unique write ?_ ?_ rule
  · intro item result revealed
    simp only [writing] at revealed
    unfold revealParts at revealed
    split at revealed <;> cases revealed <;> rfl
  · intro item frame parts revealed
    simp only [writing] at revealed ⊢
    unfold revealParts at revealed
    split at revealed <;> cases revealed <;>
      simp [write, RuleFrame.closeJson, writeAll_eq_map]

end Rule

end RuleChart
