import RuleChart.Proofs.Tree.Throughout
import RuleChart.Tree.Sketch

namespace RuleChart.Sketch

/-! The nodes that a sketch can have.

`Drawn` lists them, each with its level and with the trees right below it, and `plan_drawn` says
that a sketch has no others.  So what is to be shown of every node is shown once for each of these
forms.
-/

/-- The way from a decision to one of its outcomes. -/
def sideStep : Bool → List String
  | true => ["then"]
  | false => ["else"]

/-- The leaf of an outcome that ends its branch. -/
def branchLeaf (side : Bool) (step : List String) (value : Rule) (leafKind : NodeKind)
    (caption : Caption) : Sketch Caption :=
  { step
    caption
    kind := if side then .trueBranch else .falseBranch
    raw := value
    operator := value.operator?
    foldDepth := none
    leafKind := some leafKind }

inductive Drawn : Nat → Sketch Caption → List (Tree (Sketch Caption)) → Prop where
  | primitive (level : Nat) (step : List String) {rule : Rule}
      (primitive : rule.isPrimitive = true) : Drawn level (literal step (.labelled rule) rule) []
  | array (level : Nat) (step : List String) (items : List Rule) :
      Drawn level (array step items) (planItems Rule.maxDepth (level + 1) 0 items)
  | reference (level : Nat) (step : List String) {operator : String} {rule : Rule}
      (reference : rule.isVariable = true) (named : rule.operator? = some operator)
      (alone : rule.children[1]? = none) : Drawn level (variableNode step operator rule) []
  | referenceOr (level : Nat) (step : List String) {operator : String} (path value : Rule)
      (rest : List Rule) (keys : List String) (reference : Family.ofName operator = .variable) :
      Drawn level (variableNode step operator (.apply operator (path :: value :: rest) keys))
        [.node (defaultLeaf operator value) []]
  | defaultLeaf (level : Nat) {operator : String} (value : Rule)
      (reference : Family.ofName operator = .variable) : Drawn level (defaultLeaf operator value) []
  | decision (level : Nat) (step : List String) {operator : String} (condition value : Rule)
      (rest : List Rule) (keys : List String)
      (conditional : Family.ofName operator = .conditional) :
      Drawn level
        (decision step operator (.apply operator (condition :: value :: rest) keys) condition)
        (outcome true ["then"] value (fun _ => plan Rule.maxDepth (level + 1) ["then"] value) ::
          planElse Rule.maxDepth (level + 1) operator rest)
  | malformed (level : Nat) (step : List String) {operator : String} {operands : List Rule}
      (keys : List String) (conditional : Family.ofName operator = .conditional)
      (few : operands.length < 2) :
      Drawn level (malformed step operator (.apply operator operands keys))
        (planOperands Rule.maxDepth (level + 1) operator 0 operands)
  | malformedOne (level : Nat) (step : List String) {operator : String} (operand : Rule)
      (keys : List String) (conditional : Family.ofName operator = .conditional) :
      Drawn level (malformed step operator (.applyOne operator operand keys))
        (if operand.isSimple then []
          else [plan Rule.maxDepth (level + 1) [operator, segment 0] operand])
  | operation (level : Nat) (step : List String) {operator : String} (operands : List Rule)
      (keys : List String) (plain : Family.ofName operator ≠ .variable)
      (steady : Family.ofName operator ≠ .conditional) :
      Drawn level (operation step operator (.apply operator operands keys))
        (planOperands Rule.maxDepth (level + 1) operator 0 operands)
  | operationOne (level : Nat) (step : List String) {operator : String} (operand : Rule)
      (keys : List String) (plain : Family.ofName operator ≠ .variable)
      (steady : Family.ofName operator ≠ .conditional) :
      Drawn level (operation step operator (.applyOne operator operand keys))
        (if operand.isSimple then [] else [plan Rule.maxDepth (level + 1) [operator] operand])
  | branchLeaf (level : Nat) (side : Bool) {value : Rule} {leafKind : NodeKind}
      {caption : Caption} (found : leafOutcome? value = some (leafKind, caption)) :
      Drawn level (branchLeaf side (sideStep side) value leafKind caption) []
  | cutLeaf (level : Nat) : Drawn level cutNode []

theorem childless {level : Nat} {sketch : Sketch Caption} (here : Drawn level sketch []) :
    (Tree.node sketch []).Throughout Drawn level :=
  .node here (fun _ member => nomatch member)

theorem outcome_drawn {level : Nat} (side : Bool) (value : Rule)
    {inside : Unit → Tree (Sketch Caption)} (drawn : (inside ()).Throughout Drawn level) :
    (outcome side (sideStep side) value inside).Throughout Drawn level := by
  unfold outcome
  split
  · rename_i leafKind caption found
    exact childless (.branchLeaf level side found)
  · exact drawn

theorem isVariable_iff {rule : Rule} {operator : String} (named : rule.operator? = some operator) :
    rule.isVariable = true ↔ Family.ofName operator = .variable := by
  simp [Rule.isVariable, Rule.family?, named]

theorem plan_variable (level : Nat) (step : List String) {operator : String}
    (reference : Family.ofName operator = .variable) (operands : List Rule) (keys : List String) :
    (plan Rule.maxDepth level step (.apply operator operands keys)).Throughout Drawn level := by
  match operands with
  | path :: value :: rest =>
      simp only [plan, reference]
      refine .node (.referenceOr level step path value rest keys reference) ?_
      intro child member
      obtain rfl := List.mem_singleton.mp member
      exact childless (.defaultLeaf (level + 1) value reference)
  | [] | [_] =>
      simp only [plan, reference]
      exact childless (.reference level step ((isVariable_iff rfl).mpr reference) rfl rfl)

theorem plan_malformed (level : Nat) (step : List String) {operator : String}
    (conditional : Family.ofName operator = .conditional) {operands : List Rule}
    (few : operands.length < 2) (keys : List String) :
    plan Rule.maxDepth level step (.apply operator operands keys) =
      .node (malformed step operator (.apply operator operands keys))
        (planOperands Rule.maxDepth (level + 1) operator 0 operands) := by
  match operands with
  | [] | [_] => simp only [plan, conditional]

theorem plan_operation (level : Nat) (step : List String) {operator : String}
    (plain : Family.ofName operator ≠ .variable) (steady : Family.ofName operator ≠ .conditional)
    (operands : List Rule) (keys : List String) :
    plan Rule.maxDepth level step (.apply operator operands keys) =
      .node (operation step operator (.apply operator operands keys))
        (planOperands Rule.maxDepth (level + 1) operator 0 operands) := by
  unfold plan
  split
  all_goals first | contradiction | rfl

mutual

theorem plan_drawn (level : Nat) (step : List String) (rule : Rule) :
    (plan Rule.maxDepth level step rule).Throughout Drawn level := by
  match rule with
  | .list items => exact .node (.array level step items) (planItems_drawn (level + 1) 0 items)
  | .apply operator operands keys =>
      by_cases reference : Family.ofName operator = .variable
      · exact plan_variable level step reference operands keys
      by_cases conditional : Family.ofName operator = .conditional
      · match operands with
        | condition :: value :: rest =>
            simp only [plan, conditional]
            refine .node (.decision level step condition value rest keys conditional) ?_
            intro child member
            rcases List.mem_cons.mp member with rfl | later
            · exact outcome_drawn true value (plan_drawn (level + 1) _ value)
            · exact planElse_drawn (level + 1) conditional rest child later
        | [] | [_] =>
            rw [plan_malformed level step conditional (by simp)]
            exact .node (.malformed level step keys conditional (by simp))
              (planOperands_drawn (level + 1) operator 0 _)
      · rw [plan_operation level step reference conditional]
        exact .node (.operation level step operands keys reference conditional)
          (planOperands_drawn (level + 1) operator 0 operands)
  | .applyOne operator operand keys =>
      unfold plan
      split
      · rename_i reference
        exact childless (.reference level step ((isVariable_iff rfl).mpr reference) rfl rfl)
      · rename_i conditional
        refine .node (.malformedOne level step operand keys conditional) ?_
        intro child member
        split at member
        · cases member
        · obtain rfl := List.mem_singleton.mp member
          exact plan_drawn (level + 1) _ operand
      · rename_i plain steady
        refine .node (.operationOne level step operand keys plain steady) ?_
        intro child member
        split at member
        · cases member
        · obtain rfl := List.mem_singleton.mp member
          exact plan_drawn (level + 1) _ operand
  | .null | .bool _ | .number _ | .string _ | .emptyObject =>
      exact childless (.primitive level step rfl)

theorem planItems_drawn (level index : Nat) (items : List Rule) :
    ∀ child ∈ planItems Rule.maxDepth level index items, child.Throughout Drawn level := by
  intro child member
  match items with
  | [] => cases member
  | item :: rest =>
      rcases List.mem_cons.mp member with rfl | later
      · exact plan_drawn level _ item
      · exact planItems_drawn level (index + 1) rest child later

theorem planOperands_drawn (level : Nat) (operator : String) (index : Nat)
    (operands : List Rule) :
    ∀ child ∈ planOperands Rule.maxDepth level operator index operands,
      child.Throughout Drawn level := by
  intro child member
  match operands with
  | [] => cases member
  | operand :: rest =>
      rw [planOperands] at member
      split at member
      · exact planOperands_drawn level operator (index + 1) rest child member
      · rcases List.mem_cons.mp member with rfl | later
        · exact plan_drawn level _ operand
        · exact planOperands_drawn level operator (index + 1) rest child later

theorem planElse_drawn (level : Nat) {operator : String}
    (conditional : Family.ofName operator = .conditional) (operands : List Rule) :
    ∀ child ∈ planElse Rule.maxDepth level operator operands, child.Throughout Drawn level := by
  intro child member
  match operands with
  | [] => cases member
  | [value] =>
      obtain rfl := List.mem_singleton.mp member
      exact outcome_drawn false value (plan_drawn level _ value)
  | condition :: value :: rest =>
      rw [planElse] at member
      split at member
      · obtain rfl := List.mem_singleton.mp member
        refine .node (.decision level _ condition value rest [] conditional) ?_
        intro child member
        rcases List.mem_cons.mp member with rfl | later
        · exact outcome_drawn true value (plan_drawn (level + 1) _ value)
        · exact planElse_drawn (level + 1) conditional rest child later
      · obtain rfl := List.mem_singleton.mp member
        exact childless (.cutLeaf level)

end

/-- The segments that lead to a node from its parent, and the rule that it stands for. -/
def spot {κ : Type} (sketch : Sketch κ) : List String × Rule := (sketch.step, sketch.raw)

theorem plan_spot (level : Nat) (step : List String) (rule : Rule) :
    (plan Rule.maxDepth level step rule).value.spot = (step, rule) := by
  unfold plan
  split
  · rfl
  · split <;> rfl
  · split <;> rfl
  · rfl

theorem outcome_spot (side : Bool) {step : List String} {value : Rule}
    {inside : Tree (Sketch Caption)} (root : inside.value.spot = (step, value)) :
    (outcome side step value (fun _ => inside)).value.spot = (step, value) := by
  unfold outcome
  split
  · rfl
  · exact root

theorem planItems_spots (level index : Nat) (items : List Rule) :
    (planItems Rule.maxDepth level index items).map (·.value.spot) =
      (items.zipIdx index).map (fun entry => ([segment entry.2], entry.1)) := by
  induction items generalizing index with
  | nil => rfl
  | cons item rest restIH => simp [planItems, plan_spot, restIH]

theorem planOperands_spots (level : Nat) (operator : String) (index : Nat)
    (operands : List Rule) :
    ((planOperands Rule.maxDepth level operator index operands).map (·.value.spot)).Sublist
      ((operands.zipIdx index).map (fun entry => ([operator, segment entry.2], entry.1))) := by
  induction operands generalizing index with
  | nil => exact .slnil
  | cons operand rest restIH =>
      rw [planOperands]
      split
      · exact .cons _ (restIH (index + 1))
      · rw [List.map_cons, plan_spot]
        exact .cons_cons _ (restIH (index + 1))

/-- The sketch of what the nesting limit leaves of a rule, with levels counted from the root. -/
def ofRule (rule : Rule) : Tree (Sketch Caption) :=
  plan Rule.maxDepth 0 [] (rule.limitDepth Rule.maxDepth)

theorem ofRule_drawn (rule : Rule) : (ofRule rule).Throughout Drawn 0 := plan_drawn 0 [] _

theorem ofRule_spot (rule : Rule) :
    (ofRule rule).value.spot = ([], rule.limitDepth Rule.maxDepth) := plan_spot 0 [] _

theorem ofRule_raw (rule : Rule) : (ofRule rule).value.raw = rule.limitDepth Rule.maxDepth :=
  congrArg Prod.snd (ofRule_spot rule)

theorem ofRule_uncut {rule : Rule} (uncut : rule.limitDepth Rule.maxDepth = rule) :
    ofRule rule = plan Rule.maxDepth 0 [] rule := by
  rw [ofRule, uncut]

end RuleChart.Sketch
