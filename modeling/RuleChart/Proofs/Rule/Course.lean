import RuleChart.Proofs.Rule.Decision

namespace RuleChart.Rule

/-! The way a drawing takes through a conditional.

A drawing follows the course of the rule, but it cuts a chain that goes on after
`maxDepth` decisions.  `Decides` says of a tree of rules that it is drawn like that, and
`Decides.descend` that the way down such a tree is the course, cut where the chain is.
-/

/-- Whether a drawing cuts the chain behind `question`, its `asked`th decision from 0 on: it
is too deep, its condition fails, and the operands behind it are another decision. -/
def cutsChain (holds : Rule → Bool) (asked : Nat) (question : Rule) : Bool :=
  match question.children with
  | condition :: _ :: rest => maxDepth ≤ asked + 1 && !holds condition && 2 ≤ rest.length
  | _ => false

/-- A course with `asked` decisions behind it, as a drawing shows it. -/
def shortened (holds : Rule → Bool) (asked : Nat) : List Rule → Option Rule → Descent Rule
  | [], finish => ⟨[], finish⟩
  | question :: rest, finish =>
      if cutsChain holds asked question then ⟨[question], some truncated⟩
      else (shortened holds (asked + 1) rest finish).after question

def drawnCourse (holds : Rule → Bool) (asked : Nat) (rule : Rule) : Descent Rule :=
  shortened holds asked (questions holds rule) (course holds rule).finish

theorem shortened_of_uncut (holds : Rule → Bool) (asked : Nat) (passed : List Rule)
    (finish : Option Rule)
    (uncut : ∀ index question, passed[index]? = some question →
      cutsChain holds (asked + index) question = false) :
    shortened holds asked passed finish = ⟨passed, finish⟩ := by
  induction passed generalizing asked with
  | nil => rfl
  | cons question rest restIH =>
      have first : cutsChain holds asked question = false := uncut 0 question rfl
      have later := restIH (asked + 1) (fun index next found => by
        have kept := uncut (index + 1) next found
        rwa [show asked + (index + 1) = asked + 1 + index by omega] at kept)
      simp [shortened, first, later, Descent.after]

theorem shortened_of_cut (holds : Rule → Bool) (asked : Nat) (passed : List Rule)
    (finish : Option Rule) {index : Nat} {question : Rule} (found : passed[index]? = some question)
    (cut : cutsChain holds (asked + index) question = true)
    (first : ∀ earlier < index, ∀ other, passed[earlier]? = some other →
      cutsChain holds (asked + earlier) other = false) :
    shortened holds asked passed finish = ⟨passed.take (index + 1), some truncated⟩ := by
  induction passed generalizing asked index with
  | nil => cases found
  | cons head rest restIH =>
      cases index with
      | zero =>
          obtain rfl : head = question := by simpa using found
          simp [shortened, show cutsChain holds asked head = true from cut]
      | succ index =>
          have kept : cutsChain holds asked head = false := first 0 (by omega) head rfl
          have later := restIH (asked + 1) found
            (by rwa [show asked + (index + 1) = asked + 1 + index by omega] at cut)
            (fun earlier before other present => by
              have inside := first (earlier + 1) (by omega) other present
              rwa [show asked + (earlier + 1) = asked + 1 + earlier by omega] at inside)
          simp [shortened, kept, later, Descent.after]

theorem drawnCourse_of_settled (holds : Rule → Bool) (asked : Nat) {rule : Rule}
    (settled : rule.isDecision = false) : drawnCourse holds asked rule = ⟨[], some rule⟩ := by
  simp [drawnCourse, questions, course_of_settled holds settled, shortened]

/-- One decision of a drawn course. -/
theorem drawnCourse_apply (holds : Rule → Bool) (asked : Nat) {operator : String}
    {condition value : Rule} {rest : List Rule} {keys : List String}
    (conditional : Family.ofName operator = .conditional) :
    drawnCourse holds asked (.apply operator (condition :: value :: rest) keys) =
      if holds condition then
        (drawnCourse holds (asked + 1) value).after
          (.apply operator (condition :: value :: rest) keys)
      else if maxDepth ≤ asked + 1 ∧ 2 ≤ rest.length then
        ⟨[.apply operator (condition :: value :: rest) keys], some truncated⟩
      else
        (shortened holds (asked + 1) (courseElse holds operator rest).passed
          (courseElse holds operator rest).finish).after
          (.apply operator (condition :: value :: rest) keys) := by
  simp only [drawnCourse, questions, course_apply holds conditional, Descent.after, shortened,
    cutsChain, children]
  by_cases truth : holds condition = true
  · simp [truth]
  · simp [truth]

/-- `Decides level rule tree` says that `tree`, which stands `level` levels below the root of
its drawing, shows what `rule` decides: a decision has a child for the operand behind its
condition, and one for the other operands, if there are any. -/
inductive Decides : Nat → Rule → Tree Rule → Prop where
  | settled {level : Nat} {rule : Rule} {children : List (Tree Rule)}
      (settled : rule.isDecision = false) : Decides level rule (.node rule children)
  | alone {level : Nat} {operator : String} {condition value : Rule} {keys : List String}
      {yes : Tree Rule} (conditional : Family.ofName operator = .conditional)
      (shown : Decides (level + 1) value yes) :
      Decides level (.apply operator [condition, value] keys)
        (.node (.apply operator [condition, value] keys) [yes])
  | last {level : Nat} {operator : String} {condition value other : Rule} {keys : List String}
      {yes no : Tree Rule} (conditional : Family.ofName operator = .conditional)
      (shown : Decides (level + 1) value yes) (shownElse : Decides (level + 1) other no) :
      Decides level (.apply operator [condition, value, other] keys)
        (.node (.apply operator [condition, value, other] keys) [yes, no])
  | chain {level : Nat} {operator : String} {condition value next outcome : Rule}
      {rest : List Rule} {keys : List String} {yes no : Tree Rule}
      (conditional : Family.ofName operator = .conditional) (room : level + 1 < maxDepth)
      (shown : Decides (level + 1) value yes)
      (shownElse : Decides (level + 1) (.apply operator (next :: outcome :: rest) []) no) :
      Decides level (.apply operator (condition :: value :: next :: outcome :: rest) keys)
        (.node (.apply operator (condition :: value :: next :: outcome :: rest) keys) [yes, no])
  | cut {level : Nat} {operator : String} {condition value next outcome : Rule}
      {rest : List Rule} {keys : List String} {yes : Tree Rule}
      (conditional : Family.ofName operator = .conditional) (full : maxDepth ≤ level + 1)
      (shown : Decides (level + 1) value yes) :
      Decides level (.apply operator (condition :: value :: next :: outcome :: rest) keys)
        (.node (.apply operator (condition :: value :: next :: outcome :: rest) keys)
          [yes, .node truncated []])

theorem Decides.of_settled {level : Nat} {rule : Rule} {tree : Tree Rule}
    (settled : rule.isDecision = false) (root : tree.value = rule) : Decides level rule tree := by
  cases tree with
  | node value children =>
      obtain rfl : value = rule := root
      exact .settled settled

theorem truncated_settled : truncated.isDecision = false := by decide

/-- The way down a tree that shows what a rule decides. -/
theorem Decides.descend (holds : Rule → Bool) {level : Nat} {rule : Rule} {tree : Tree Rule}
    (shows : Decides level rule tree) :
    tree.descend (side? holds) = drawnCourse holds level rule := by
  induction shows with
  | settled settled =>
      simp only [Tree.descend, side?_eq_none_iff.mpr settled,
        drawnCourse_of_settled holds _ settled]
  | @alone level operator condition value keys yes conditional shown shownIH =>
      rw [drawnCourse_apply holds level conditional]
      by_cases truth : holds condition = true
      · simp [Tree.descend, Tree.descendAt, side?, condition?_apply conditional, truth, shownIH]
      · simp [Tree.descend, Tree.descendAt, side?, condition?_apply conditional, truth,
          courseElse, shortened]
  | @last level operator condition value other keys yes no conditional shown shownElse shownIH
      elseIH =>
      rw [drawnCourse_apply holds level conditional]
      by_cases truth : holds condition = true
      · simp [Tree.descend, Tree.descendAt, side?, condition?_apply conditional, truth, shownIH]
      · simp [Tree.descend, Tree.descendAt, side?, condition?_apply conditional, truth, elseIH,
          courseElse, drawnCourse, questions]
  | @chain level operator condition value next outcome rest keys yes no conditional room shown
      shownElse shownIH elseIH =>
      rw [drawnCourse_apply holds level conditional]
      have uncut : ¬ maxDepth ≤ level + 1 := by omega
      by_cases truth : holds condition = true
      · simp [Tree.descend, Tree.descendAt, side?, condition?_apply conditional, truth, shownIH]
      · simp [Tree.descend, Tree.descendAt, side?, condition?_apply conditional, truth, elseIH,
          uncut, courseElse_chain holds conditional, drawnCourse, questions]
  | @cut level operator condition value next outcome rest keys yes conditional full shown
      shownIH =>
      rw [drawnCourse_apply holds level conditional]
      by_cases truth : holds condition = true
      · simp [Tree.descend, Tree.descendAt, side?, condition?_apply conditional, truth, shownIH]
      · simp [Tree.descend, Tree.descendAt, side?, condition?_apply conditional, truth, full,
          condition?_eq_none_iff.mpr truncated_settled, Descent.after]

/-- `trees` shows, `level` levels below the root, the operands behind the first two of a
conditional. -/
def DecidesElse (level : Nat) (operator : String) : List Rule → List (Tree Rule) → Prop
  | [], trees => trees = []
  | [other], trees => ∃ no, trees = [no] ∧ Decides level other no
  | next :: outcome :: rest, trees => ∃ no, trees = [no] ∧
      if level < maxDepth then Decides level (.apply operator (next :: outcome :: rest) []) no
      else no = .node truncated []

theorem Decides.decision {level : Nat} {operator : String} {condition value : Rule}
    {rest : List Rule} {keys : List String} {yes : Tree Rule} {others : List (Tree Rule)}
    (conditional : Family.ofName operator = .conditional) (shown : Decides (level + 1) value yes)
    (shownElse : DecidesElse (level + 1) operator rest others) :
    Decides level (.apply operator (condition :: value :: rest) keys)
      (.node (.apply operator (condition :: value :: rest) keys) (yes :: others)) := by
  match rest with
  | [] =>
      cases shownElse
      exact .alone conditional shown
  | [other] =>
      obtain ⟨no, rfl, otherShown⟩ := shownElse
      exact .last conditional shown otherShown
  | next :: outcome :: rest =>
      obtain ⟨no, rfl, next⟩ := shownElse
      by_cases room : level + 1 < maxDepth
      · rw [if_pos room] at next
        exact .chain conditional room shown next
      · rw [if_neg room] at next
        cases next
        exact .cut conditional (Nat.le_of_not_lt room) shown

end RuleChart.Rule
