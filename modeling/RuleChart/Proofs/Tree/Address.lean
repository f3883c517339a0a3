import RuleChart.Proofs.Tree.Numbering

namespace RuleChart.Tree

variable {α β : Type}

/-- The subtree at an address. -/
def at? : List Nat → Tree α → Option (Tree α)
  | [], tree => some tree
  | index :: rest, tree => tree.children[index]?.bind (at? rest)

/-- The value at an address. -/
def get? (address : List Nat) (tree : Tree α) : Option α := (at? address tree).map value

mutual

/-- The values in preorder, each with its address. -/
def located : Tree α → List (List Nat × α)
  | .node value children => ([], value) :: locatedAll 0 children

/-- The same for siblings, the first of them at `index`. -/
def locatedAll (index : Nat) : List (Tree α) → List (List Nat × α)
  | [] => []
  | tree :: rest =>
      tree.located.map (fun entry => (index :: entry.1, entry.2)) ++ locatedAll (index + 1) rest

end

@[simp] theorem get?_nil (tree : Tree α) : tree.get? [] = some tree.value := rfl

theorem get?_cons (index : Nat) (address : List Nat) (tree : Tree α) :
    tree.get? (index :: address) = tree.children[index]?.bind (get? address) := by
  simp only [get?, at?]
  cases tree.children[index]? <;> rfl

theorem at?_concat (address : List Nat) (index : Nat) (tree : Tree α) :
    tree.at? (address ++ [index]) =
      (tree.at? address).bind (fun part => part.children[index]?) := by
  induction address generalizing tree with
  | nil =>
      simp only [List.nil_append, at?, Option.bind_some]
      cases tree.children[index]? <;> rfl
  | cons first address addressIH =>
      rw [List.cons_append, at?, at?]
      cases tree.children[first]? with
      | none => rfl
      | some child => exact addressIH child

theorem get?_map (f : α → β) (address : List Nat) (tree : Tree α) :
    (tree.map f).get? address = (tree.get? address).map f := by
  induction address generalizing tree with
  | nil => simp
  | cons index address addressIH =>
      rw [get?_cons, get?_cons, children_map, List.getElem?_map]
      cases tree.children[index]? with
      | none => rfl
      | some child => exact addressIH child

mutual

theorem located_map (f : α → β) (tree : Tree α) :
    (tree.map f).located = tree.located.map (fun entry => (entry.1, f entry.2)) := by
  cases tree with
  | node value children =>
      simp only [map, located, List.map_cons, locatedAll_mapAll f 0 children]

theorem locatedAll_mapAll (f : α → β) (index : Nat) (trees : List (Tree α)) :
    locatedAll index (mapAll f trees) =
      (locatedAll index trees).map (fun entry => (entry.1, f entry.2)) := by
  cases trees with
  | nil => rfl
  | cons tree rest =>
      simp only [mapAll, locatedAll, List.map_append, List.map_map, located_map f tree,
        locatedAll_mapAll f (index + 1) rest, Function.comp_def]

end

mutual

theorem located_snd (tree : Tree α) : tree.located.map Prod.snd = tree.preorder := by
  cases tree with
  | node value children =>
      simp only [located, preorder, List.map_cons, locatedAll_snd 0 children]

theorem locatedAll_snd (index : Nat) (trees : List (Tree α)) :
    (locatedAll index trees).map Prod.snd = preorderAll trees := by
  cases trees with
  | nil => rfl
  | cons tree rest =>
      simp only [locatedAll, preorderAll, List.map_append, List.map_map, Function.comp_def,
        located_snd tree, locatedAll_snd (index + 1) rest]

end

/-- An entry of siblings lies in one of them. -/
theorem mem_locatedAll {index : Nat} {trees : List (Tree α)} {entry : List Nat × α}
    (member : entry ∈ locatedAll index trees) :
    ∃ place tree address, trees[place]? = some tree ∧ (address, entry.2) ∈ tree.located ∧
      entry.1 = (index + place) :: address := by
  induction trees generalizing index with
  | nil => cases member
  | cons tree rest restIH =>
      rcases List.mem_append.mp member with within | later
      · obtain ⟨inner, inside, rfl⟩ := List.mem_map.mp within
        exact ⟨0, tree, inner.1, rfl, inside, rfl⟩
      · obtain ⟨place, other, address, found, inside, same⟩ := restIH later
        refine ⟨place + 1, other, address, found, inside, ?_⟩
        rw [same, Nat.add_right_comm, Nat.add_assoc]

mutual

theorem get?_of_mem_located (tree : Tree α) {entry : List Nat × α}
    (member : entry ∈ tree.located) : tree.get? entry.1 = some entry.2 := by
  cases tree with
  | node value children =>
      rcases List.mem_cons.mp member with rfl | below
      · rfl
      · obtain ⟨place, child, address, found, inside, same⟩ := mem_locatedAll below
        rw [same, Nat.zero_add, get?_cons, children_node, found]
        exact get?_of_mem_children children found inside

theorem get?_of_mem_children (trees : List (Tree α)) {place : Nat} {tree : Tree α}
    (found : trees[place]? = some tree) {entry : List Nat × α} (member : entry ∈ tree.located) :
    tree.get? entry.1 = some entry.2 := by
  cases trees with
  | nil => cases found
  | cons first rest =>
      cases place with
      | zero =>
          cases found
          exact get?_of_mem_located tree member
      | succ place => exact get?_of_mem_children rest found member

end

theorem mem_locatedAll_of_getElem? (index : Nat) {place : Nat} {trees : List (Tree α)}
    {tree : Tree α}
    (found : trees[place]? = some tree) {entry : List Nat × α} (member : entry ∈ tree.located) :
    ((index + place) :: entry.1, entry.2) ∈ locatedAll index trees := by
  induction trees generalizing index place with
  | nil => cases found
  | cons first rest restIH =>
      cases place with
      | zero =>
          cases found
          exact List.mem_append_left _ (List.mem_map.mpr ⟨entry, member, rfl⟩)
      | succ place =>
          have later := restIH (index + 1) found
          rw [Nat.add_right_comm, Nat.add_assoc] at later
          exact List.mem_append_right _ later

theorem mem_located_of_get? {address : List Nat} {tree : Tree α} {value : α}
    (found : tree.get? address = some value) : (address, value) ∈ tree.located := by
  induction address generalizing tree with
  | nil =>
      cases tree with
      | node root children =>
          cases found
          exact List.mem_cons_self
  | cons index address addressIH =>
      cases tree with
      | node root children =>
          rw [get?_cons] at found
          obtain ⟨child, listed, found⟩ := Option.bind_eq_some_iff.mp found
          have below := mem_locatedAll_of_getElem? 0 listed (addressIH found)
          rw [Nat.zero_add] at below
          exact List.mem_cons_of_mem _ below

theorem mem_preorder_iff {tree : Tree α} {value : α} :
    value ∈ tree.preorder ↔ ∃ address, tree.get? address = some value := by
  rw [← located_snd]
  constructor
  · intro member
    obtain ⟨entry, located, rfl⟩ := List.mem_map.mp member
    exact ⟨entry.1, get?_of_mem_located tree located⟩
  · rintro ⟨address, found⟩
    exact List.mem_map.mpr ⟨_, mem_located_of_get? found, rfl⟩

mutual

/-- In preorder every address comes after its beginnings and after all to the left of it. -/
theorem located_sorted (tree : Tree α) :
    tree.located.Pairwise (fun first second => first.1 < second.1) := by
  cases tree with
  | node value children =>
      refine List.pairwise_cons.mpr ⟨fun entry member => ?_, locatedAll_sorted 0 children⟩
      obtain ⟨place, child, address, -, -, same⟩ := mem_locatedAll member
      rw [same]
      exact List.nil_lt_cons _ _

theorem locatedAll_sorted (index : Nat) (trees : List (Tree α)) :
    (locatedAll index trees).Pairwise (fun first second => first.1 < second.1) := by
  cases trees with
  | nil => exact .nil
  | cons tree rest =>
      refine List.pairwise_append.mpr ⟨?_, locatedAll_sorted (index + 1) rest, ?_⟩
      · refine List.pairwise_map.mpr ((located_sorted tree).imp fun before => ?_)
        exact List.cons_lt_cons_iff.mpr (.inr ⟨rfl, before⟩)
      · intro entry member other later
        obtain ⟨inner, -, rfl⟩ := List.mem_map.mp member
        obtain ⟨place, child, address, -, -, same⟩ := mem_locatedAll later
        rw [same]
        exact List.cons_lt_cons_iff.mpr (.inl (by omega))

end

end RuleChart.Tree
