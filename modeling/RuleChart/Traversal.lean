namespace RuleChart

/-! Bottom-up traversals that hold their unfinished work in a list of their own, so that
no nesting of the input is too deep for them.

`meaning` is the plain recursion.  `run` keeps a list of tasks beside the list of results
found so far: an item that has parts puts the parts in front of a task that collects
their results.  `run_visit` says that one visit adds exactly the item's meaning to the
results, so no collecting task ever finds too few of them.
-/

/-- What an item is: a result at once, or parts whose results `frame` is to join. -/
inductive Opened (ι φ β : Type) where
  | done (result : β)
  | pending (frame : φ) (parts : List ι)

/-- The weight of several items together, one more for each of them. -/
def combinedWeight {ι : Type} (weight : ι → Nat) : List ι → Nat
  | [] => 0
  | part :: rest => weight part + 1 + combinedWeight weight rest

theorem combinedWeight_map {ι κ : Type} (weight : ι → Nat) (f : κ → ι) (parts : List κ) :
    combinedWeight weight (parts.map f) = combinedWeight (fun part => weight (f part)) parts := by
  induction parts with
  | nil => rfl
  | cons first rest restIH => simp [combinedWeight, restIH]

/-- A way to open items and to join results, in which all parts of an item together weigh
less than it. -/
structure Traversal (ι φ β : Type) where
  reveal : ι → Opened ι φ β
  close : φ → List β → β
  weight : ι → Nat
  lighter : ∀ {item frame parts}, reveal item = .pending frame parts →
    combinedWeight weight parts < weight item

inductive Task (ι φ : Type) where
  | visit (item : ι)
  | collect (frame : φ) (count : Nat)

namespace Task

/-- Puts a visit of every item in front of `tasks`. -/
def visits {ι φ : Type} (items : List ι) (tasks : List (Task ι φ)) : List (Task ι φ) :=
  items.map .visit ++ tasks

end Task

namespace Traversal

variable {ι φ β : Type}

theorem part_lighter (walk : Traversal ι φ β) {item part : ι} {frame : φ} {parts : List ι}
    (revealed : walk.reveal item = .pending frame parts) (member : part ∈ parts) :
    walk.weight part < walk.weight item := by
  have total := walk.lighter revealed
  have bound : walk.weight part + 1 ≤ combinedWeight walk.weight parts := by
    clear total revealed
    induction parts with
    | nil => cases member
    | cons first rest restIH =>
        simp only [combinedWeight]
        rcases List.mem_cons.mp member with rfl | inRest
        · omega
        · have inside := restIH inRest
          omega
  omega

/-- The result of an item by plain recursion. -/
def meaning (walk : Traversal ι φ β) (item : ι) : β :=
  match _revealed : walk.reveal item with
  | .done result => result
  | .pending frame parts =>
      walk.close frame (parts.attach.map (fun part => walk.meaning part.val))
termination_by walk.weight item
decreasing_by exact walk.part_lighter ‹_› part.property

theorem meaning_done (walk : Traversal ι φ β) {item : ι} {result : β}
    (revealed : walk.reveal item = .done result) : walk.meaning item = result := by
  rw [meaning]
  split
  · simp_all
  · simp_all

theorem meaning_pending (walk : Traversal ι φ β) {item : ι} {frame : φ} {parts : List ι}
    (revealed : walk.reveal item = .pending frame parts) :
    walk.meaning item = walk.close frame (parts.map walk.meaning) := by
  rw [meaning]
  split
  · simp_all
  · rename_i found
    rw [revealed] at found
    cases found
    simp

/-- The tasks still to be done, an upper bound on the steps left. -/
def load (walk : Traversal ι φ β) : List (Task ι φ) → Nat
  | [] => 0
  | .visit item :: tasks => walk.weight item + 1 + walk.load tasks
  | .collect _ _ :: tasks => 1 + walk.load tasks

theorem load_visits (walk : Traversal ι φ β) (parts : List ι) (tasks : List (Task ι φ)) :
    walk.load (Task.visits parts tasks) =
      combinedWeight walk.weight parts + walk.load tasks := by
  induction parts with
  | nil => simp [Task.visits, combinedWeight]
  | cons first rest restIH =>
      simp only [Task.visits, List.map_cons, List.cons_append, load, combinedWeight] at restIH ⊢
      omega

/-- Does all tasks, the newest result in front.  `none` would say that a collecting task
found fewer results than it asks for. -/
def run (walk : Traversal ι φ β) (tasks : List (Task ι φ)) (results : List β) :
    Option (List β) :=
  match tasks with
  | [] => some results
  | .collect frame count :: tasks =>
      if count ≤ results.length then
        walk.run tasks (walk.close frame (results.take count).reverse :: results.drop count)
      else none
  | .visit item :: tasks =>
      match _revealed : walk.reveal item with
      | .done result => walk.run tasks (result :: results)
      | .pending frame parts =>
          walk.run (Task.visits parts (.collect frame parts.length :: tasks)) results
termination_by walk.load tasks
decreasing_by
  · simp only [load]
    omega
  · simp only [load]
    omega
  · have total := walk.lighter ‹_›
    simp only [load_visits, load]
    omega

theorem run_visits (walk : Traversal ι φ β) (parts : List ι) (tasks : List (Task ι φ))
    (results : List β)
    (visitIH : ∀ part ∈ parts, ∀ tasks results,
      walk.run (.visit part :: tasks) results = walk.run tasks (walk.meaning part :: results)) :
    walk.run (Task.visits parts tasks) results =
      walk.run tasks ((parts.map walk.meaning).reverse ++ results) := by
  induction parts generalizing results with
  | nil => simp [Task.visits]
  | cons first rest restIH =>
      simp only [Task.visits, List.map_cons, List.cons_append] at restIH ⊢
      rw [visitIH first (by simp), restIH _ (fun part member => visitIH part (by simp [member]))]
      simp

theorem run_visit (walk : Traversal ι φ β) (item : ι) (tasks : List (Task ι φ))
    (results : List β) :
    walk.run (.visit item :: tasks) results =
      walk.run tasks (walk.meaning item :: results) := by
  cases revealed : walk.reveal item with
  | done result =>
      rw [run, walk.meaning_done revealed]
      split <;> simp_all
  | pending frame parts =>
      have opened : walk.run (.visit item :: tasks) results =
          walk.run (Task.visits parts (.collect frame parts.length :: tasks)) results := by
        rw [run]
        split <;> simp_all
      rw [opened, run_visits walk parts _ results
        (fun part _ tasks results => run_visit walk part tasks results)]
      have enough : parts.length ≤ ((parts.map walk.meaning).reverse ++ results).length := by
        simp
      have collected : ((parts.map walk.meaning).reverse ++ results).take parts.length =
          (parts.map walk.meaning).reverse := by
        rw [List.take_append_of_le_length (by simp)]
        exact List.take_of_length_le (by simp)
      have left : ((parts.map walk.meaning).reverse ++ results).drop parts.length = results := by
        rw [List.drop_append_of_le_length (by simp), List.drop_of_length_le (by simp),
          List.nil_append]
      rw [run, if_pos enough, collected, left, List.reverse_reverse,
        walk.meaning_pending revealed]
termination_by walk.weight item
decreasing_by exact walk.part_lighter revealed ‹_›

theorem run_single (walk : Traversal ι φ β) (item : ι) :
    walk.run [.visit item] [] = some [walk.meaning item] := by
  rw [run_visit, run]

/-- The result of an item, found without recursion on it. -/
def apply (walk : Traversal ι φ β) (item : ι) : β :=
  ((walk.run [.visit item] []).bind List.head?).get (by simp [run_single])

theorem apply_eq_meaning (walk : Traversal ι φ β) (item : ι) :
    walk.apply item = walk.meaning item := by
  simp [apply, run_single]

/-- A function that opens and closes items in the same way is the meaning. -/
theorem meaning_unique (walk : Traversal ι φ β) (f : ι → β)
    (done : ∀ item result, walk.reveal item = .done result → f item = result)
    (pending : ∀ item frame parts, walk.reveal item = .pending frame parts →
      f item = walk.close frame (parts.map f)) (item : ι) :
    walk.meaning item = f item := by
  cases revealed : walk.reveal item with
  | done result => rw [walk.meaning_done revealed, done item result revealed]
  | pending frame parts =>
      rw [walk.meaning_pending revealed, pending item frame parts revealed]
      congr 1
      exact List.map_congr_left
        (fun part _ => meaning_unique walk f done pending part)
termination_by walk.weight item
decreasing_by exact walk.part_lighter revealed ‹_›

end Traversal

end RuleChart
