import RuleChart.Proofs.Label.Congruence

namespace RuleChart

namespace Label

/-- A text can be the label of an operation, as far as its name and the labels of its operands
tell. -/
inductive Composed (operator : String) (parts : List String) : String → Prop where
  | ellipsis : Composed operator parts ellipsis
  | joined {separator : String}
      (known : separator ∈ [" AND ", " OR ", " in ", " " ++ operator ++ " "])
      {labels : List String} (nonempty : labels ≠ [])
      (each : ∀ label ∈ labels, label ∈ parts ∨ ∃ count, label = itemsSummary count) :
      Composed operator parts (separator.intercalate labels)
  | marked {word : String} (known : word ∈ ["NOT ", "BOOL "]) {label : String}
      (shown : label ∈ parts) : Composed operator parts (word ++ label)
  | bare {text : String} (known : text ∈ ["NOT ?", "BOOL ?"]) : Composed operator parts text
  | call : Composed operator parts (operator ++ "(...)")
  | capitals (family : Family.ofName operator = .iteration) :
      Composed operator parts (operator.toUpper ++ "(...)")

theorem Composed.pair {operator separator first second : String} {parts : List String}
    (known : separator ∈ [" AND ", " OR ", " in ", " " ++ operator ++ " "])
    (shown : first ∈ parts) (other : second ∈ parts ∨ ∃ count, second = itemsSummary count) :
    Composed operator parts (first ++ separator ++ second) := by
  have joined : first ++ separator ++ second = separator.intercalate [first, second] := by
    simp [String.append_assoc]
  rw [joined]
  refine .joined known (List.cons_ne_nil _ _) ?_
  simp only [List.mem_cons, List.not_mem_nil, or_false, forall_eq_or_imp, forall_eq]
  exact ⟨.inl shown, other⟩

end Label

namespace Rule

open Label (Composed)

theorem labelAt_apply_composed (compact : Bool) {depth : Nat} (shallow : ¬ Label.maxDepth < depth)
    {operator : String} (plain : Family.ofName operator ≠ .variable) (operands : List Rule)
    (keys : List String) :
    Composed operator (labelsAt (depth + 1) operands)
      ((apply operator operands keys).labelAt compact depth) := by
  have every (labels : List String) : ∀ label ∈ labels,
      label ∈ labels ∨ ∃ count, label = Label.itemsSummary count := fun _ => .inl
  unfold labelAt
  rw [if_neg shallow]
  dsimp only
  split
  case h_1 => exact .ellipsis
  case h_2 family | h_3 family => exact absurd family plain
  case h_4 left right rest family =>
    have joined : Composed operator (labelsAt (depth + 1) (left :: right :: rest))
        (left.labelAt true (depth + 1) ++ (" " ++ operator ++ " ") ++
          right.labelAt true (depth + 1)) :=
      .pair (by simp) List.mem_cons_self (.inl (List.mem_cons_of_mem _ List.mem_cons_self))
    simpa only [← String.append_assoc] using joined
  case h_5 | h_6 | h_13 => exact .joined (by simp) (List.cons_ne_nil _ _) (every _)
  case h_7 | h_9 => exact .bare (by simp)
  case h_8 | h_10 => exact .marked (by simp) List.mem_cons_self
  case h_11 => exact .pair (by simp) List.mem_cons_self (.inr ⟨_, rfl⟩)
  case h_12 =>
    exact .pair (by simp) List.mem_cons_self (.inl (List.mem_cons_of_mem _ List.mem_cons_self))
  case h_14 family => exact .capitals family
  case h_15 => exact .call

theorem labelAt_applyOne_composed (compact : Bool) {depth : Nat}
    (shallow : ¬ Label.maxDepth < depth) {operator : String}
    (plain : Family.ofName operator ≠ .variable) (operand : Rule) (keys : List String) :
    Composed operator [operand.labelAt true (depth + 1)]
      ((applyOne operator operand keys).labelAt compact depth) := by
  cases family : Family.ofName operator with
  | «variable» => exact absurd family plain
  | truncation =>
      simp only [labelAt, if_neg shallow, family]
      exact .ellipsis
  | negation | truth =>
      simp only [labelAt, if_neg shallow, family]
      exact .marked (by simp) List.mem_cons_self
  | iteration =>
      simp only [labelAt, if_neg shallow, family]
      exact .capitals family
  | _ =>
      simp only [labelAt, if_neg shallow, family]
      exact .call

end Rule

end RuleChart
