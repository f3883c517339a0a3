import Mathlib.Data.List.Pairwise
import RuleChart.Proofs.Rule.Decision
import RuleChart.Proofs.Text.Split
import RuleChart.Tree.Sketch

namespace RuleChart.Rule

/-! Paths into a rule.

`steps` lists the parts right inside of a rule, each with the segments that select it, and `Leads`
puts such steps behind each other.  No step of a rule is the beginning of another one, whatever
its operators are called, so a path leads to one part only: `Leads.unique`.
-/

/-- What the operands behind the outcome of a conditional stand for: a single one for itself, more
of them for a conditional of their own. -/
def otherwise? (operator : String) : List Rule → Option Rule
  | [] => none
  | [value] => some value
  | operands => some (.apply operator operands [])

/-- The parts of a rule that can be nodes of their own, each behind the segments that select it.
The condition of a decision and the path of a variable are none of them. -/
def steps : Rule → List (List String × Rule)
  | .list items => items.zipIdx.map (fun entry => ([Sketch.segment entry.2], entry.1))
  | .apply operator operands _ =>
      match Family.ofName operator, operands with
      | .variable, _ :: value :: _ => [([operator, Sketch.segment 1], value)]
      | .variable, _ => []
      | .conditional, _ :: value :: rest =>
          (["then"], value) ::
            (otherwise? operator rest).toList.map (fun other => (["else"], other))
      | _, operands =>
          operands.zipIdx.map (fun entry => ([operator, Sketch.segment entry.2], entry.1))
  | .applyOne operator operand _ =>
      match Family.ofName operator with
      | .variable => []
      | .conditional => [([operator, Sketch.segment 0], operand)]
      | _ => [([operator], operand)]
  | _ => []

theorem steps_decision {operator : String} (conditional : Family.ofName operator = .conditional)
    (condition value : Rule) (rest : List Rule) (keys : List String) :
    (apply operator (condition :: value :: rest) keys).steps =
      (["then"], value) ::
        (otherwise? operator rest).toList.map (fun other => (["else"], other)) := by
  simp only [steps, conditional]

theorem steps_malformed {operator : String} (conditional : Family.ofName operator = .conditional)
    {operands : List Rule} (few : operands.length < 2) (keys : List String) :
    (apply operator operands keys).steps =
      operands.zipIdx.map (fun entry => ([operator, Sketch.segment entry.2], entry.1)) := by
  match operands with
  | [] | [_] => simp only [steps, conditional]

theorem steps_operation {operator : String} (plain : Family.ofName operator ≠ .variable)
    (steady : Family.ofName operator ≠ .conditional) (operands : List Rule) (keys : List String) :
    (apply operator operands keys).steps =
      operands.zipIdx.map (fun entry => ([operator, Sketch.segment entry.2], entry.1)) := by
  simp only [steps]
  split
  all_goals first | contradiction | rfl

theorem steps_operationOne {operator : String} (plain : Family.ofName operator ≠ .variable)
    (steady : Family.ofName operator ≠ .conditional) (operand : Rule) (keys : List String) :
    (applyOne operator operand keys).steps = [([operator], operand)] := by
  simp only [steps]

/-- The path leads from the first rule to the second. -/
inductive Leads : Rule → List String → Rule → Prop where
  | here (rule : Rule) : Leads rule [] rule
  | step {rule part target : Rule} {step path : List String} (entered : (step, part) ∈ rule.steps)
      (onward : Leads part path target) : Leads rule (step ++ path) target

/-- Neither path is the beginning of the other. -/
def Diverge (one other : List String) : Prop := ¬ one <+: other ∧ ¬ other <+: one

theorem diverge_of_length {one other : List String} (length : one.length = other.length)
    (different : one ≠ other) : Diverge one other :=
  ⟨fun start => different (start.eq_of_length length),
    fun start => different (start.eq_of_length length.symm).symm⟩

/-- Paths with diverging beginnings have no common continuation. -/
theorem Diverge.not_both {one other path : List String} (apart : Diverge one other)
    (start : one <+: path) (otherStart : other <+: path) : False :=
  (List.prefix_or_prefix_of_prefix start otherStart).elim apart.1 apart.2

theorem Diverge.append {one other : List String} (before : List String)
    (apart : Diverge one other) : Diverge (before ++ one) (before ++ other) := by
  simpa only [Diverge, List.prefix_append_right_inj] using apart

theorem segment_injective {one other : Nat} (same : Sketch.segment one = Sketch.segment other) :
    one = other := by
  have chars := congrArg String.toList same
  exact Text.digits_injective (by simpa [Sketch.segment] using chars)

/-- Steps that differ in an index written last. -/
theorem indexed_diverge (before : List String) (items : List Rule) :
    (items.zipIdx.map (fun entry => (before ++ [Sketch.segment entry.2], entry.1))).Pairwise
      (fun one other => Diverge one.1 other.1) := by
  have indices : (items.zipIdx.map Prod.snd).Nodup := by
    rw [List.zipIdx_map_snd]
    exact List.nodup_range'
  refine List.pairwise_map.mpr ((List.pairwise_map.mp indices).imp fun different => ?_)
  refine diverge_of_length (by simp) fun same => different ?_
  exact segment_injective (by simpa using same)

theorem steps_diverge (rule : Rule) :
    rule.steps.Pairwise (fun one other => Diverge one.1 other.1) := by
  unfold steps
  split
  · exact indexed_diverge [] _
  · split
    · exact List.pairwise_singleton _ _
    · exact .nil
    · generalize otherwise? _ _ = other
      cases other with
      | none => exact List.pairwise_singleton _ _
      | some other =>
          have sides : Diverge ["then"] ["else"] := diverge_of_length rfl (by decide)
          simpa using sides
    · exact indexed_diverge [_] _
  · split
    · exact .nil
    · exact List.pairwise_singleton _ _
    · exact List.pairwise_singleton _ _
  · exact .nil

theorem step_length {rule part : Rule} {step : List String} (entered : (step, part) ∈ rule.steps) :
    step.length = 1 ∨ step.length = 2 := by
  unfold steps at entered
  split at entered <;> try split at entered
  all_goals grind

theorem step_ne_nil {rule part : Rule} {step : List String} (entered : (step, part) ∈ rule.steps) :
    step ≠ [] := by
  rintro rfl
  have length := step_length entered
  simp at length

/-- A step leads to a child of the rule, or to the rest of a chain. -/
theorem part_of_step {rule part : Rule} {step : List String}
    (entered : (step, part) ∈ rule.steps) :
    part ∈ rule.children ∨ ∃ operator condition value rest keys,
      rule = .apply operator (condition :: value :: rest) keys ∧
        Family.ofName operator = .conditional ∧ part = .apply operator rest [] := by
  have indexed (before : List String) (items : List Rule)
      (entered : (step, part) ∈ items.zipIdx.map
        (fun entry => (before ++ [Sketch.segment entry.2], entry.1))) : part ∈ items := by
    obtain ⟨entry, member, same⟩ := List.mem_map.mp entered
    rw [← (Prod.mk.inj same).2]
    exact List.fst_mem_of_mem_zipIdx member
  unfold steps at entered
  split at entered
  · exact .inl (indexed [] _ entered)
  · split at entered
    · obtain ⟨-, rfl⟩ := Prod.mk.inj (List.mem_singleton.mp entered)
      exact .inl (by simp [children])
    · cases entered
    · rename_i operator keys condition value rest family
      rcases List.mem_cons.mp entered with same | side
      · obtain ⟨-, rfl⟩ := Prod.mk.inj same
        exact .inl (by simp [children])
      · obtain ⟨other, found, same⟩ := List.mem_map.mp side
        obtain ⟨-, rfl⟩ := Prod.mk.inj same
        rcases rest with _ | ⟨last, _ | ⟨next, rest⟩⟩
        · cases found
        · obtain rfl := List.mem_singleton.mp found
          exact .inl (by simp [children])
        · obtain rfl := List.mem_singleton.mp found
          exact .inr ⟨_, _, _, _, _, rfl, family, rfl⟩
    · exact .inl (indexed [_] _ entered)
  · split at entered
    · cases entered
    · obtain ⟨-, rfl⟩ := Prod.mk.inj (List.mem_singleton.mp entered)
      exact .inl (List.mem_singleton_self _)
    · obtain ⟨-, rfl⟩ := Prod.mk.inj (List.mem_singleton.mp entered)
      exact .inl (List.mem_singleton_self _)
  · cases entered

instance divergeSymm : Std.Symm (fun one other : List String × Rule => Diverge one.1 other.1) :=
  ⟨fun _ _ apart => ⟨apart.2, apart.1⟩⟩

/-- Of the steps into a rule, one at most is the beginning of a path. -/
theorem step_unique {rule : Rule} {one other : List String × Rule} {path : List String}
    (entered : one ∈ rule.steps) (otherEntered : other ∈ rule.steps) (start : one.1 <+: path)
    (otherStart : other.1 <+: path) : one = other := by
  by_contra different
  exact ((steps_diverge rule).forall entered otherEntered different).not_both start otherStart

theorem Leads.unique {rule target other : Rule} {path : List String}
    (leads : rule.Leads path target) (otherLeads : rule.Leads path other) : target = other := by
  induction leads with
  | here rule =>
      generalize shape : ([] : List String) = path at otherLeads
      cases otherLeads with
      | here => rfl
      | step entered onward =>
          exact absurd (List.append_eq_nil_iff.mp shape.symm).1 (step_ne_nil entered)
  | @step rule part target step path entered onward onwardIH =>
      generalize shape : step ++ path = whole at otherLeads
      cases otherLeads with
      | here => exact absurd (List.append_eq_nil_iff.mp shape).1 (step_ne_nil entered)
      | @step _ otherPart _ otherStep otherPath otherEntered otherOnward =>
          have same := step_unique entered otherEntered (List.prefix_append step path)
            (by rw [shape]; exact List.prefix_append otherStep otherPath)
          obtain ⟨rfl, rfl⟩ := Prod.mk.inj same
          obtain rfl := List.append_cancel_left shape
          exact onwardIH otherOnward

theorem Leads.append {rule part target : Rule} {way path : List String}
    (leads : rule.Leads way part) (onward : part.Leads path target) :
    rule.Leads (way ++ path) target := by
  induction leads with
  | here => exact onward
  | step entered _ onwardIH =>
      rw [List.append_assoc]
      exact .step entered (onwardIH onward)

theorem Leads.next {rule part inside : Rule} {way step : List String} (leads : rule.Leads way part)
    (entered : (step, inside) ∈ part.steps) : rule.Leads (way ++ step) inside := by
  have one : part.Leads (step ++ []) inside := .step entered (.here inside)
  rw [List.append_nil] at one
  exact leads.append one

end RuleChart.Rule
