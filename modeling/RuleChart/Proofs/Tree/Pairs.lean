import Mathlib.Data.List.Forall2
import RuleChart.Proofs.Tree.Address

namespace RuleChart.Tree

variable {α β : Type}

mutual

def pairs : Tree α → List (α × α)
  | .node value children => pairsBelow value children

def pairsBelow (parent : α) : List (Tree α) → List (α × α)
  | [] => []
  | child :: rest => (parent, child.value) :: child.pairs ++ pairsBelow parent rest

end

mutual

theorem pairs_map (f : α → β) (tree : Tree α) :
    (tree.map f).pairs = tree.pairs.map (Prod.map f f) := by
  cases tree with
  | node value children => exact pairsBelow_mapAll f value children

theorem pairsBelow_mapAll (f : α → β) (parent : α) (trees : List (Tree α)) :
    pairsBelow (f parent) (mapAll f trees) = (pairsBelow parent trees).map (Prod.map f f) := by
  cases trees with
  | nil => rfl
  | cons child rest =>
      simp only [mapAll, pairsBelow, value_map, List.map_append, List.map_cons, Prod.map,
        pairs_map f child, pairsBelow_mapAll f parent rest]

end

/-- The second value of the pair is at the place, and the first one right above it. -/
def PairAt (values : List Nat → Option α) (pair : α × α) (place : List Nat × α) : Prop :=
  ∃ address index, place = (address ++ [index], pair.2) ∧ values address = some pair.1 ∧
    values (address ++ [index]) = some pair.2

mutual

theorem pairs_located (tree : Tree α) :
    List.Forall₂ (PairAt (fun address => tree.get? address)) tree.pairs tree.located.tail := by
  cases tree with
  | node value children =>
      refine pairsBelow_located _ value 0 children rfl ?_
      intro place child address found
      rw [Nat.zero_add, get?_cons, children_node, found]
      rfl

/-- `values` tells the parent and what is in the trees below it, the first of which has the number
`index` among its siblings. -/
theorem pairsBelow_located (values : List Nat → Option α) (parent : α) (index : Nat)
    (trees : List (Tree α)) (root : values [] = some parent)
    (agrees : ∀ place child address, trees[place]? = some child →
      values ((index + place) :: address) = child.get? address) :
    List.Forall₂ (PairAt values) (pairsBelow parent trees) (locatedAll index trees) := by
  cases trees with
  | nil => exact .nil
  | cons child rest =>
      have within := pairs_located child
      have later := pairsBelow_located values parent (index + 1) rest root
        fun place sibling address found => by
          rw [Nat.add_right_comm, Nat.add_assoc]
          exact agrees (place + 1) sibling address found
      refine List.rel_append ?_ later
      cases child with
      | node value children =>
          have inside := agrees 0 (.node value children)
          refine .cons ⟨[], index, rfl, root, inside [] rfl⟩
            (List.forall₂_map_right_iff.mpr (within.imp ?_))
          rintro pair place ⟨address, last, rfl, upper, lower⟩
          exact ⟨index :: address, last, rfl, (inside address rfl).trans upper,
            (inside (address ++ [last]) rfl).trans lower⟩

end

theorem value_mem_preorder (tree : Tree α) : tree.value ∈ tree.preorder := by
  cases tree
  exact List.mem_cons_self

mutual

theorem mem_preorder_of_mem_pairs (tree : Tree α) {pair : α × α} (member : pair ∈ tree.pairs) :
    pair.1 ∈ tree.preorder ∧ pair.2 ∈ tree.preorder := by
  cases tree with
  | node value children =>
      obtain ⟨upper, lower⟩ := mem_preorderAll_of_mem_pairsBelow value children member
      exact ⟨List.mem_cons.mpr upper, List.mem_cons_of_mem _ lower⟩

theorem mem_preorderAll_of_mem_pairsBelow (parent : α) (trees : List (Tree α)) {pair : α × α}
    (member : pair ∈ pairsBelow parent trees) :
    (pair.1 = parent ∨ pair.1 ∈ preorderAll trees) ∧ pair.2 ∈ preorderAll trees := by
  cases trees with
  | nil => cases member
  | cons child rest =>
      simp only [preorderAll, List.mem_append]
      rcases List.mem_append.mp member with here | later
      · rcases List.mem_cons.mp here with rfl | within
        · exact ⟨.inl rfl, .inl (value_mem_preorder child)⟩
        · obtain ⟨upper, lower⟩ := mem_preorder_of_mem_pairs child within
          exact ⟨.inr (.inl upper), .inl lower⟩
      · obtain ⟨upper, lower⟩ := mem_preorderAll_of_mem_pairsBelow parent rest later
        exact ⟨upper.imp_right .inr, .inr lower⟩

end

end RuleChart.Tree
