import RuleChart.Proofs.Tree.Descent
import RuleChart.Rule.Depth

namespace RuleChart.Rule

/-- The condition that a decision asks. -/
def condition? (rule : Rule) : Option Rule :=
  if rule.isDecision then rule.children.head? else none

/-- The child that a decision goes on to: the first if its condition holds, else the
second. -/
def side? (holds : Rule → Bool) (rule : Rule) : Option Nat :=
  rule.condition?.map (fun condition => if holds condition then 0 else 1)

/-- Of operands that are pairs of a condition and a value, and perhaps one more: the value
behind the first condition that holds, or else the last operand. -/
def chosen? (holds : Rule → Bool) : List Rule → Option Rule
  | [] => none
  | [last] => some last
  | condition :: value :: rest => if holds condition then some value else chosen? holds rest

theorem mem_of_chosen? {holds : Rule → Bool} {value : Rule} (operands : List Rule)
    (chosen : chosen? holds operands = some value) : value ∈ operands := by
  fun_induction chosen? holds operands with
  | case1 => cases chosen
  | case2 last => simpa using chosen.symm
  | case3 condition first rest truth =>
      cases chosen
      simp
  | case4 condition first rest truth restIH =>
      have inside := restIH chosen
      simp [inside]

theorem weight_lt_of_mem {rule : Rule} {rules : List Rule} (member : rule ∈ rules) :
    rule.weight < weights rules := by
  induction rules with
  | nil => cases member
  | cons first rest restIH =>
      simp only [weights]
      rcases List.mem_cons.mp member with rfl | later
      · omega
      · have inside := restIH later
        omega

theorem weight_lt_of_child {rule child : Rule} (member : child ∈ rule.children) :
    child.weight < rule.weight := by
  cases rule with
  | null | bool | number | string | emptyObject => cases member
  | list items =>
      have inside : child.weight < weights items := weight_lt_of_mem member
      simp only [weight]
      omega
  | apply operator operands keys =>
      have inside : child.weight < weights operands := weight_lt_of_mem member
      simp only [weight]
      omega
  | applyOne operator operand keys =>
      have same : child = operand := by simpa [children] using member
      subst same
      simp [weight]

/-- Induction on a rule from its children. -/
@[elab_as_elim]
theorem children_induction {motive : Rule → Prop}
    (step : ∀ rule, (∀ child ∈ rule.children, motive child) → motive rule) (rule : Rule) :
    motive rule :=
  step rule (fun child _member => children_induction step child)
termination_by rule.weight
decreasing_by exact weight_lt_of_child _member

/-- What a rule comes to when every decision takes the operand that it chooses. -/
def selected? (holds : Rule → Bool) (rule : Rule) : Option Rule :=
  if rule.isDecision then
    match _chosen : chosen? holds rule.children with
    | some value => selected? holds value
    | none => none
  else some rule
termination_by rule.weight
decreasing_by exact weight_lt_of_child (mem_of_chosen? _ ‹_›)

mutual

/-- The decisions that a rule leads through, and what it comes to.  The operands behind a
condition that fails are a conditional of their own. -/
def course (holds : Rule → Bool) (rule : Rule) : Descent Rule :=
  match rule with
  | .apply operator (condition :: value :: rest) keys =>
      if Family.ofName operator = .conditional then
        (if holds condition then course holds value else courseElse holds operator rest).after
          (.apply operator (condition :: value :: rest) keys)
      else ⟨[], some (.apply operator (condition :: value :: rest) keys)⟩
  | rule => ⟨[], some rule⟩

def courseElse (holds : Rule → Bool) (operator : String) : List Rule → Descent Rule
  | [] => ⟨[], none⟩
  | [value] => course holds value
  | condition :: value :: rest =>
      (if holds condition then course holds value else courseElse holds operator rest).after
        (.apply operator (condition :: value :: rest) [])

end

/-- The decisions that are asked on the way to what a rule comes to. -/
def questions (holds : Rule → Bool) (rule : Rule) : List Rule := (course holds rule).passed

theorem isDecision_apply {operator : String} {condition value : Rule} {rest : List Rule}
    {keys : List String} :
    (apply operator (condition :: value :: rest) keys).isDecision = true ↔
      Family.ofName operator = .conditional := by
  simp [isDecision]

theorem isDecision_cases {rule : Rule} (decision : rule.isDecision = true) :
    ∃ operator condition value rest keys,
      rule = .apply operator (condition :: value :: rest) keys ∧
        Family.ofName operator = .conditional := by
  unfold isDecision at decision
  split at decision
  · exact ⟨_, _, _, _, _, rfl, by simpa using decision⟩
  · cases decision

theorem isConditional_apply {operator : String} {operands : List Rule} {keys : List String} :
    (apply operator operands keys).isConditional = true ↔
      Family.ofName operator = .conditional := by
  simp [isConditional, family?, operator?]

theorem settled_of_not_conditional {rule : Rule} (other : ¬ rule.isConditional = true) :
    rule.isDecision = false := by
  cases decision : rule.isDecision with
  | false => rfl
  | true =>
      obtain ⟨operator, condition, value, rest, keys, rfl, conditional⟩ :=
        isDecision_cases decision
      exact absurd (isConditional_apply.mpr conditional) other

theorem not_conditional_of_variable {rule : Rule} (reference : rule.isVariable = true) :
    ¬ rule.isConditional = true := by
  have family : rule.family? = some .variable := by simpa [isVariable] using reference
  simp [isConditional, family]

theorem condition?_eq_none_iff {rule : Rule} :
    rule.condition? = none ↔ rule.isDecision = false := by
  constructor
  · intro noCondition
    cases decision : rule.isDecision with
    | false => rfl
    | true =>
        obtain ⟨operator, condition, value, rest, keys, rfl, conditional⟩ :=
          isDecision_cases decision
        simp [condition?, decision, children] at noCondition
  · intro settled
    simp [condition?, settled]

theorem condition?_apply {operator : String} {condition value : Rule} {rest : List Rule}
    {keys : List String} (conditional : Family.ofName operator = .conditional) :
    (apply operator (condition :: value :: rest) keys).condition? = some condition := by
  simp [condition?, isDecision_apply.mpr conditional, children]

theorem condition?_cases {rule condition : Rule} (asked : rule.condition? = some condition) :
    ∃ operator value rest keys, rule = .apply operator (condition :: value :: rest) keys ∧
      Family.ofName operator = .conditional := by
  cases decision : rule.isDecision with
  | false =>
      rw [condition?_eq_none_iff.mpr decision] at asked
      cases asked
  | true =>
      obtain ⟨operator, first, value, rest, keys, rfl, conditional⟩ := isDecision_cases decision
      rw [condition?_apply conditional] at asked
      cases asked
      exact ⟨operator, value, rest, keys, rfl, conditional⟩

theorem side?_eq_none_iff {holds : Rule → Bool} {rule : Rule} :
    rule.side? holds = none ↔ rule.isDecision = false := by
  rw [side?, Option.map_eq_none_iff, condition?_eq_none_iff]

theorem course_of_settled (holds : Rule → Bool) {rule : Rule}
    (settled : rule.isDecision = false) : course holds rule = ⟨[], some rule⟩ := by
  unfold course
  split
  · rename_i operator condition value rest keys
    have other : ¬ Family.ofName operator = .conditional := by
      simpa [isDecision] using settled
    rw [if_neg other]
  · rfl

theorem course_apply (holds : Rule → Bool) {operator : String} {condition value : Rule}
    {rest : List Rule} {keys : List String}
    (conditional : Family.ofName operator = .conditional) :
    course holds (.apply operator (condition :: value :: rest) keys) =
      (if holds condition then course holds value else courseElse holds operator rest).after
        (.apply operator (condition :: value :: rest) keys) := by
  rw [course, if_pos conditional]

theorem courseElse_chain (holds : Rule → Bool) {operator : String} {condition value : Rule}
    {rest : List Rule} (conditional : Family.ofName operator = .conditional) :
    courseElse holds operator (condition :: value :: rest) =
      course holds (.apply operator (condition :: value :: rest) []) := by
  rw [course_apply holds conditional, courseElse]

theorem selected?_of_settled (holds : Rule → Bool) {rule : Rule}
    (settled : rule.isDecision = false) : selected? holds rule = some rule := by
  rw [selected?, if_neg (by simp [settled])]

theorem selected?_of_decision (holds : Rule → Bool) {rule : Rule}
    (decision : rule.isDecision = true) :
    selected? holds rule = (chosen? holds rule.children).bind (selected? holds) := by
  rw [selected?, if_pos decision]
  split <;> rename_i chosen <;> simp [chosen]

mutual

theorem course_finish (holds : Rule → Bool) (rule : Rule) :
    (course holds rule).finish = selected? holds rule := by
  match rule with
  | .apply operator (condition :: value :: rest) keys =>
      by_cases conditional : Family.ofName operator = .conditional
      · rw [course_apply holds conditional,
          selected?_of_decision holds (isDecision_apply.mpr conditional)]
        simp only [Descent.after, children, chosen?]
        by_cases truth : holds condition = true
        · simp only [truth, if_true, Option.bind_some, course_finish holds value]
        · simp only [truth, if_false, Bool.false_eq_true, courseElse_finish holds operator rest]
      · have settled : (apply operator (condition :: value :: rest) keys).isDecision = false := by
          simpa [isDecision] using conditional
        rw [course_of_settled holds settled, selected?_of_settled holds settled]
  | .null | .bool _ | .number _ | .string _ | .emptyObject | .list _ | .applyOne _ _ _
  | .apply _ [] _ | .apply _ [_] _ =>
      rw [course_of_settled holds rfl, selected?_of_settled holds rfl]

theorem courseElse_finish (holds : Rule → Bool) (operator : String) (operands : List Rule) :
    (courseElse holds operator operands).finish =
      (chosen? holds operands).bind (selected? holds) := by
  match operands with
  | [] => rfl
  | [value] => simp only [courseElse, chosen?, Option.bind_some, course_finish holds value]
  | condition :: value :: rest =>
      simp only [courseElse, Descent.after, chosen?]
      by_cases truth : holds condition = true
      · simp only [truth, if_true, Option.bind_some, course_finish holds value]
      · simp only [truth, if_false, Bool.false_eq_true, courseElse_finish holds operator rest]

end

end RuleChart.Rule
