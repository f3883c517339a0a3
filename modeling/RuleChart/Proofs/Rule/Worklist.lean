import RuleChart.Rule.Depth

namespace RuleChart

/-! Traversals turn by turn.

One turn of the loop takes the task in front: a visit leaves a result or puts more tasks in front,
and a collecting task takes as many results as were asked for when it was put there.  `forecast`
says what the tasks will make of the results, by plain recursion on each item.  No turn changes it
and every turn lowers the load, so the loop ends with what was forecast at its start.
-/

/-- A loop between two turns: what is left to do, and the results found so far. -/
structure Stage (ι φ β : Type) where
  tasks : List (Task ι φ)
  results : List β

namespace Stage

variable {ι φ β : Type}

/-- Before the first turn. -/
def initial (item : ι) : Stage ι φ β := ⟨[.visit item], []⟩

/-- The task in front finds all the results that it takes. -/
def Covered (stage : Stage ι φ β) : Prop :=
  ∀ frame count tasks, stage.tasks = .collect frame count :: tasks → count ≤ stage.results.length

end Stage

namespace Traversal

variable {ι φ β : Type} {walk : Traversal ι φ β}

/-- One turn of the loop, if a task is left.  A collecting task takes what is there, be it too
little. -/
def turn? (walk : Traversal ι φ β) : Stage ι φ β → Option (Stage ι φ β)
  | ⟨[], _⟩ => none
  | ⟨.visit item :: tasks, results⟩ =>
      match walk.reveal item with
      | .done result => some ⟨tasks, result :: results⟩
      | .pending frame parts =>
          some ⟨Task.visits parts (.collect frame parts.length :: tasks), results⟩
  | ⟨.collect frame count :: tasks, results⟩ =>
      some ⟨tasks, walk.close frame (results.take count).reverse :: results.drop count⟩

/-- The loop after some turns.  Without a task it stays as it is. -/
def after (walk : Traversal ι φ β) (stage : Stage ι φ β) : Nat → Stage ι φ β
  | 0 => stage
  | turns + 1 => walk.after ((walk.turn? stage).getD stage) turns

/-- The loop for an item ends, never takes a result that is not there, and leaves one result. -/
structure Finishes (walk : Traversal ι φ β) (item : ι) (result : β) : Prop where
  ends : ∃ turns ≤ walk.weight item + 1, walk.after (.initial item) turns = ⟨[], [result]⟩ ∧
    ∀ earlier < turns, (walk.after (.initial item) earlier).tasks ≠ []
  covered : ∀ turns, (walk.after (.initial item) turns).Covered
  run_eq : walk.run [.visit item] [] = some [result]

/-! What one turn does. -/

/-- The results when all tasks are done, if no task finds too few. -/
def forecast (walk : Traversal ι φ β) : List (Task ι φ) → List β → Option (List β)
  | [], results => some results
  | .visit item :: tasks, results => walk.forecast tasks (walk.meaning item :: results)
  | .collect frame count :: tasks, results =>
      if count ≤ results.length then
        walk.forecast tasks (walk.close frame (results.take count).reverse :: results.drop count)
      else none

theorem forecast_visits (parts : List ι) (tasks : List (Task ι φ)) (results : List β) :
    walk.forecast (Task.visits parts tasks) results =
      walk.forecast tasks ((parts.map walk.meaning).reverse ++ results) := by
  induction parts generalizing results with
  | nil => rfl
  | cons first rest restIH =>
      have onward := restIH (walk.meaning first :: results)
      simpa [Task.visits, forecast] using onward

theorem covered_of_forecast {stage : Stage ι φ β} {final : List β}
    (known : walk.forecast stage.tasks stage.results = some final) : stage.Covered := by
  intro frame count tasks front
  rw [front, forecast] at known
  split at known
  · assumption
  · cases known

theorem turn?_eq_none_iff {stage : Stage ι φ β} : walk.turn? stage = none ↔ stage.tasks = [] := by
  rcases stage with ⟨_ | ⟨item | ⟨frame, count⟩, tasks⟩, results⟩
  · simp [turn?]
  · simp only [turn?, reduceCtorEq, iff_false]
    split <;> simp
  · simp [turn?]

/-- A turn only does what was forecast. -/
theorem forecast_turn {stage next : Stage ι φ β} (turned : walk.turn? stage = some next)
    (covered : stage.Covered) :
    walk.forecast next.tasks next.results = walk.forecast stage.tasks stage.results := by
  rcases stage with ⟨_ | ⟨item | ⟨frame, count⟩, tasks⟩, results⟩
  · cases turned
  · rw [turn?] at turned
    split at turned
    · rename_i result revealed
      cases turned
      rw [forecast, walk.meaning_done revealed]
    · rename_i frame parts revealed
      cases turned
      have enough : parts.length ≤ ((parts.map walk.meaning).reverse ++ results).length := by simp
      have taken : ((parts.map walk.meaning).reverse ++ results).take parts.length =
          (parts.map walk.meaning).reverse := List.take_left' (by simp)
      have kept : ((parts.map walk.meaning).reverse ++ results).drop parts.length = results :=
        List.drop_left' (by simp)
      dsimp only
      rw [forecast_visits, forecast, forecast, if_pos enough, taken, kept, List.reverse_reverse,
        walk.meaning_pending revealed]
  · cases turned
    rw [forecast, if_pos (covered frame count tasks rfl)]

theorem load_turn {stage next : Stage ι φ β} (turned : walk.turn? stage = some next) :
    walk.load next.tasks < walk.load stage.tasks := by
  rcases stage with ⟨_ | ⟨item | ⟨frame, count⟩, tasks⟩, results⟩
  · cases turned
  · rw [turn?] at turned
    split at turned
    · cases turned
      simp only [load]
      omega
    · rename_i frame parts revealed
      cases turned
      have lighter := walk.lighter revealed
      simp only [load_visits, load]
      omega
  · cases turned
    simp only [load]
    omega

theorem run_turn {stage next : Stage ι φ β} (turned : walk.turn? stage = some next)
    (covered : stage.Covered) :
    walk.run next.tasks next.results = walk.run stage.tasks stage.results := by
  rcases stage with ⟨_ | ⟨item | ⟨frame, count⟩, tasks⟩, results⟩
  · cases turned
  · rw [turn?] at turned
    dsimp only
    rw [run]
    split at turned
    · cases turned
      split <;> simp_all
    · cases turned
      split <;> simp_all
  · cases turned
    rw [run, if_pos (covered frame count tasks rfl)]

/-! What a whole run does. -/

theorem forecast_after {stage : Stage ι φ β} {final : List β}
    (known : walk.forecast stage.tasks stage.results = some final) (turns : Nat) :
    walk.forecast (walk.after stage turns).tasks (walk.after stage turns).results = some final := by
  induction turns generalizing stage with
  | zero => exact known
  | succ turns turnsIH =>
      rw [after]
      cases turned : walk.turn? stage with
      | none => exact turnsIH known
      | some next => exact turnsIH ((forecast_turn turned (covered_of_forecast known)).trans known)

theorem ends_within_load {stage : Stage ι φ β} {final : List β}
    (known : walk.forecast stage.tasks stage.results = some final) :
    ∃ turns ≤ walk.load stage.tasks, walk.after stage turns = ⟨[], final⟩ ∧
      (∀ earlier < turns, (walk.after stage earlier).tasks ≠ []) ∧
      walk.run stage.tasks stage.results = some final := by
  cases turned : walk.turn? stage with
  | none =>
      obtain ⟨tasks, results⟩ := stage
      obtain rfl : tasks = [] := turn?_eq_none_iff.mp turned
      obtain rfl := Option.some.inj known
      exact ⟨0, Nat.zero_le _, rfl, fun _ earlier => absurd earlier (Nat.not_lt_zero _),
        by rw [run]⟩
  | some next =>
      have covered := covered_of_forecast known
      have lighter := load_turn turned
      obtain ⟨turns, bound, ended, before, ran⟩ :=
        ends_within_load ((forecast_turn turned covered).trans known)
      refine ⟨turns + 1, by omega, ?_, ?_, (run_turn turned covered).symm.trans ran⟩
      · rw [after, turned]
        exact ended
      · rintro (_ | earlier) sooner
        · intro done
          exact Option.some_ne_none next (turned.symm.trans (turn?_eq_none_iff.mpr done))
        · rw [after, turned]
          exact before earlier (by omega)
termination_by walk.load stage.tasks

theorem finishes_meaning (walk : Traversal ι φ β) (item : ι) :
    walk.Finishes item (walk.meaning item) := by
  let stage : Stage ι φ β := .initial item
  have known : walk.forecast stage.tasks stage.results = some [walk.meaning item] := rfl
  obtain ⟨turns, bound, ended, before, ran⟩ := ends_within_load known
  exact {
    ends := ⟨turns, bound, ended, before⟩
    covered := fun turns => covered_of_forecast (forecast_after known turns)
    run_eq := ran }

variable {γ : Type}

/-- What some turns tell, if each visit tells something of its item. -/
def told (walk : Traversal ι φ β) (tells : ι → List γ) (stage : Stage ι φ β) : Nat → List γ
  | 0 => []
  | turns + 1 =>
      (match stage.tasks with
        | .visit item :: _ => tells item
        | _ => []) ++ walk.told tells ((walk.turn? stage).getD stage) turns

/-- What is still to be told of items that wait for a visit. -/
def awaited (account : ι → List γ) : List (Task ι φ) → List γ
  | [] => []
  | .visit item :: tasks => account item ++ awaited account tasks
  | .collect _ _ :: tasks => awaited account tasks

theorem awaited_visits (account : ι → List γ) (parts : List ι) (tasks : List (Task ι φ)) :
    awaited account (Task.visits parts tasks) =
      parts.flatMap account ++ awaited account tasks := by
  induction parts with
  | nil => rfl
  | cons part rest restIH =>
      rw [List.flatMap_cons, List.append_assoc, ← restIH]
      rfl

/-- An account of all items says of each what its visit tells, and then what there is to tell of
its parts. -/
structure Account (walk : Traversal ι φ β) (tells account : ι → List γ) : Prop where
  done : ∀ {item result}, walk.reveal item = .done result → account item = tells item
  pending : ∀ {item frame parts}, walk.reveal item = .pending frame parts →
    account item = tells item ++ parts.flatMap account

/-- What the turns have told and what is awaited never change together. -/
theorem Account.told_append_awaited {tells account : ι → List γ}
    (accounts : walk.Account tells account) (stage : Stage ι φ β) (turns : Nat) :
    walk.told tells stage turns ++ awaited account (walk.after stage turns).tasks =
      awaited account stage.tasks := by
  induction turns generalizing stage with
  | zero => rfl
  | succ turns turnsIH =>
      rw [told, after, List.append_assoc, turnsIH]
      rcases stage with ⟨_ | ⟨item | ⟨frame, count⟩, tasks⟩, results⟩
      · rfl
      · cases revealed : walk.reveal item with
        | done result =>
            simp only [turn?, revealed, awaited, accounts.done revealed, Option.getD_some]
        | pending frame parts =>
            simp only [turn?, revealed, awaited, awaited_visits, accounts.pending revealed,
              Option.getD_some, List.append_assoc]
      · rfl

/-- The whole run for an item tells its account. -/
theorem Account.told_eq {tells account : ι → List γ} (accounts : walk.Account tells account)
    {item : ι} {turns : Nat} (ended : (walk.after (.initial item) turns).tasks = []) :
    walk.told tells (.initial item) turns = account item := by
  have whole := accounts.told_append_awaited (.initial item) turns
  rw [ended] at whole
  simpa [awaited, Stage.initial] using whole

end Traversal

namespace Rule

/-- The loops that read a rule from a JSON value, write it as one, and cut it at a limit end for
every input.  None of them ever takes more results than there are, and each leaves one result, that
of the plain recursion on the value or rule. -/
theorem worklists_finish :
    (∀ value : Json, reading.Finishes value (read value)) ∧
      (∀ rule : Rule, writing.Finishes rule rule.write) ∧
      ∀ (limit : Int) (rule : Rule),
        cutting.Finishes ⟨limit.toNat, rule⟩ (rule.cut limit.toNat) := by
  refine ⟨fun value => ?_, fun rule => ?_, fun limit rule => ?_⟩
  · rw [← ofJson_eq_read, ofJson, Traversal.apply_eq_meaning]
    exact reading.finishes_meaning value
  · rw [← toJson_eq_write, toJson, Traversal.apply_eq_meaning]
    exact writing.finishes_meaning rule
  · rw [← cutting_apply, Traversal.apply_eq_meaning]
    exact cutting.finishes_meaning _

end Rule

end RuleChart
