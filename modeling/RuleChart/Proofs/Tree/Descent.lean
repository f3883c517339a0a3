import RuleChart.Proofs.Tree.Numbering

namespace RuleChart

/-- The values that were passed, and the one that was reached, if any. -/
structure Descent (α : Type) where
  passed : List α
  finish : Option α
deriving DecidableEq, Repr

namespace Descent

variable {α β : Type}

/-- The same way with `value` in front. -/
def after (value : α) (way : Descent α) : Descent α := { way with passed := value :: way.passed }

def map (f : α → β) (way : Descent α) : Descent β := ⟨way.passed.map f, way.finish.map f⟩

@[simp] theorem map_after (f : α → β) (value : α) (way : Descent α) :
    (way.after value).map f = (way.map f).after (f value) := rfl

end Descent

namespace Tree

variable {α β : Type}

mutual

def descend (turn : α → Option Nat) : Tree α → Descent α
  | .node value children =>
      match turn value with
      | none => ⟨[], some value⟩
      | some index => (descendAt turn index children).after value

/-- The way down from the child at `index`. -/
def descendAt (turn : α → Option Nat) : Nat → List (Tree α) → Descent α
  | _, [] => ⟨[], none⟩
  | 0, tree :: _ => tree.descend turn
  | index + 1, _ :: rest => descendAt turn index rest

end

mutual

theorem descend_map (f : α → β) (turn : β → Option Nat) (tree : Tree α) :
    (tree.map f).descend turn = (tree.descend (fun value => turn (f value))).map f := by
  cases tree with
  | node value children =>
      simp only [map, descend]
      cases turn (f value) with
      | none => rfl
      | some index => simp only [Descent.map_after, descendAt_mapAll f turn index children]

theorem descendAt_mapAll (f : α → β) (turn : β → Option Nat) (index : Nat)
    (trees : List (Tree α)) :
    descendAt turn index (mapAll f trees) =
      (descendAt (fun value => turn (f value)) index trees).map f := by
  cases trees with
  | nil => cases index <;> rfl
  | cons tree rest =>
      cases index with
      | zero => simp only [mapAll, descendAt, descend_map f turn tree]
      | succ index => simp only [mapAll, descendAt, descendAt_mapAll f turn index rest]

end

theorem descendAt_getElem? (turn : α → Option Nat) (index : Nat) (trees : List (Tree α)) :
    descendAt turn index trees =
      match trees[index]? with
      | some tree => tree.descend turn
      | none => ⟨[], none⟩ := by
  induction trees generalizing index with
  | nil => cases index <;> rfl
  | cons tree rest restIH =>
      cases index with
      | zero => rfl
      | succ index => simpa [descendAt] using restIH index

mutual

/-- Every value passed has a turn. -/
theorem turn_of_mem_passed {turn : α → Option Nat} {value : α} (tree : Tree α)
    (member : value ∈ (tree.descend turn).passed) : value ∈ tree.preorder ∧ turn value ≠ none := by
  cases tree with
  | node root children =>
      simp only [descend] at member
      cases found : turn root with
      | none => simp [found] at member
      | some index =>
          simp only [found, Descent.after, List.mem_cons] at member
          rcases member with rfl | below
          · exact ⟨List.mem_cons_self, by simp [found]⟩
          · have inside := turn_of_mem_passedAt children below
            exact ⟨List.mem_cons_of_mem _ inside.1, inside.2⟩

theorem turn_of_mem_passedAt {turn : α → Option Nat} {value : α} {index : Nat}
    (trees : List (Tree α)) (member : value ∈ (descendAt turn index trees).passed) :
    value ∈ preorderAll trees ∧ turn value ≠ none := by
  cases trees with
  | nil => cases index <;> simp [descendAt] at member
  | cons tree rest =>
      cases index with
      | zero =>
          have inside := turn_of_mem_passed tree member
          exact ⟨List.mem_append_left _ inside.1, inside.2⟩
      | succ index =>
          have inside := turn_of_mem_passedAt rest member
          exact ⟨List.mem_append_right _ inside.1, inside.2⟩

end

mutual

/-- Where a way finishes there is no turn, and a value with a turn stands right above it, unless
the way finishes at once. -/
theorem turn_of_finish {turn : α → Option Nat} {value : α} (tree : Tree α)
    (found : (tree.descend turn).finish = some value) :
    turn value = none ∧ ∃ part ∈ tree.subtrees, part.value = value ∧
      (part = tree ∨
        ∃ parent ∈ tree.subtrees, part ∈ parent.children ∧ turn parent.value ≠ none) := by
  cases tree with
  | node root children =>
      simp only [descend] at found
      cases turned : turn root with
      | none =>
          obtain rfl : root = value := by simpa [turned] using found
          exact ⟨turned, _, self_mem_subtrees _, rfl, .inl rfl⟩
      | some index =>
          simp only [turned, Descent.after] at found
          obtain ⟨final, part, inside, same, above⟩ := turn_of_finishAt children found
          refine ⟨final, part, List.mem_cons_of_mem _ inside, same, .inr ?_⟩
          rcases above with child | ⟨parent, parentInside, child, parentTurn⟩
          · exact ⟨_, self_mem_subtrees _, child, by simp [turned]⟩
          · exact ⟨parent, List.mem_cons_of_mem _ parentInside, child, parentTurn⟩

theorem turn_of_finishAt {turn : α → Option Nat} {value : α} {index : Nat} (trees : List (Tree α))
    (found : (descendAt turn index trees).finish = some value) :
    turn value = none ∧ ∃ part ∈ subtreesAll trees, part.value = value ∧
      (part ∈ trees ∨
        ∃ parent ∈ subtreesAll trees, part ∈ parent.children ∧ turn parent.value ≠ none) := by
  cases trees with
  | nil => cases index <;> simp [descendAt] at found
  | cons tree rest =>
      cases index with
      | zero =>
          obtain ⟨final, part, inside, same, above⟩ := turn_of_finish tree found
          refine ⟨final, part, List.mem_append_left _ inside, same, ?_⟩
          rcases above with rfl | ⟨parent, parentInside, child, parentTurn⟩
          · exact .inl List.mem_cons_self
          · exact .inr ⟨parent, List.mem_append_left _ parentInside, child, parentTurn⟩
      | succ index =>
          obtain ⟨final, part, inside, same, above⟩ := turn_of_finishAt rest found
          refine ⟨final, part, List.mem_append_right _ inside, same, ?_⟩
          rcases above with child | ⟨parent, parentInside, child, parentTurn⟩
          · exact .inl (List.mem_cons_of_mem _ child)
          · exact .inr ⟨parent, List.mem_append_right _ parentInside, child, parentTurn⟩

end

end Tree

end RuleChart
