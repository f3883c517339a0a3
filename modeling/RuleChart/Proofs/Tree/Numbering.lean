import RuleChart.Tree.Basic

namespace RuleChart.Tree

variable {α β γ : Type}

mutual

theorem map_map (f : α → β) (g : β → γ) (tree : Tree α) :
    (tree.map f).map g = tree.map (fun value => g (f value)) := by
  cases tree with
  | node value children => simp only [map, mapAll_mapAll f g children]

theorem mapAll_mapAll (f : α → β) (g : β → γ) (trees : List (Tree α)) :
    mapAll g (mapAll f trees) = mapAll (fun value => g (f value)) trees := by
  cases trees with
  | nil => rfl
  | cons tree rest => simp only [mapAll, map_map f g tree, mapAll_mapAll f g rest]

end

mutual

theorem map_id (tree : Tree α) : tree.map id = tree := by
  cases tree with
  | node value children => rw [map, mapAll_id children, id]

theorem mapAll_id (trees : List (Tree α)) : mapAll id trees = trees := by
  cases trees with
  | nil => rfl
  | cons tree rest => rw [mapAll, map_id tree, mapAll_id rest]

end

theorem mapAll_eq_map (f : α → β) (trees : List (Tree α)) : mapAll f trees = trees.map (map f) := by
  induction trees with
  | nil => rfl
  | cons tree rest restIH => simp [mapAll, restIH]

@[simp] theorem value_node (value : α) (children : List (Tree α)) :
    (node value children).value = value := rfl

@[simp] theorem children_node (value : α) (children : List (Tree α)) :
    (node value children).children = children := rfl

@[simp] theorem value_map (f : α → β) (tree : Tree α) : (tree.map f).value = f tree.value := by
  cases tree
  rfl

@[simp] theorem children_map (f : α → β) (tree : Tree α) :
    (tree.map f).children = tree.children.map (map f) := by
  cases tree
  exact mapAll_eq_map f _

mutual

@[simp] theorem size_map (f : α → β) (tree : Tree α) : (tree.map f).size = tree.size := by
  cases tree with
  | node value children => simp only [map, size, sizeAll_mapAll f children]

theorem sizeAll_mapAll (f : α → β) (trees : List (Tree α)) :
    sizeAll (mapAll f trees) = sizeAll trees := by
  cases trees with
  | nil => rfl
  | cons tree rest => simp only [mapAll, sizeAll, size_map f tree, sizeAll_mapAll f rest]

end

theorem sizeAll_append (left right : List (Tree α)) :
    sizeAll (left ++ right) = sizeAll left + sizeAll right := by
  induction left with
  | nil => rw [List.nil_append, sizeAll, Nat.zero_add]
  | cons tree rest restIH => rw [List.cons_append, sizeAll, sizeAll, restIH, Nat.add_assoc]

theorem size_pos (tree : Tree α) : 0 < tree.size := by
  cases tree
  exact Nat.succ_pos _

mutual

theorem numbered_map (f : α → β) (first : Nat) (tree : Tree α) :
    (tree.map f).numbered first =
      (tree.numbered first).map (fun entry => (entry.1, f entry.2)) := by
  cases tree with
  | node value children => simp only [map, numbered, numberedAll_mapAll f (first + 1) children]

theorem numberedAll_mapAll (f : α → β) (first : Nat) (trees : List (Tree α)) :
    numberedAll first (mapAll f trees) =
      mapAll (fun entry => (entry.1, f entry.2)) (numberedAll first trees) := by
  cases trees with
  | nil => rfl
  | cons tree rest =>
      simp only [mapAll, numberedAll, size_map, numbered_map f first tree,
        numberedAll_mapAll f (first + tree.size) rest]

end

mutual

theorem map_numbered (first : Nat) (tree : Tree α) :
    (tree.numbered first).map Prod.snd = tree := by
  cases tree with
  | node value children => simp only [numbered, map, mapAll_numberedAll (first + 1) children]

theorem mapAll_numberedAll (first : Nat) (trees : List (Tree α)) :
    mapAll Prod.snd (numberedAll first trees) = trees := by
  cases trees with
  | nil => rfl
  | cons tree rest =>
      simp only [numberedAll, mapAll, map_numbered first tree,
        mapAll_numberedAll (first + tree.size) rest]

end

@[simp] theorem size_numbered (first : Nat) (tree : Tree α) :
    (tree.numbered first).size = tree.size := by
  rw [← size_map Prod.snd, map_numbered]

theorem value_numbered (first : Nat) (tree : Tree α) :
    (tree.numbered first).value = (first, tree.value) := by
  cases tree
  rfl

theorem numbered_inj {first first' : Nat} {tree tree' : Tree α}
    (same : tree.numbered first = tree'.numbered first') : first = first' ∧ tree = tree' := by
  have roots := congrArg (fun part => part.value.1) same
  have plain := congrArg (fun part => part.map Prod.snd) same
  simp only [value_numbered, map_numbered] at roots plain
  exact ⟨roots, plain⟩

mutual

theorem preorder_map (f : α → β) (tree : Tree α) :
    (tree.map f).preorder = tree.preorder.map f := by
  cases tree with
  | node value children =>
      simp only [map, preorder, List.map_cons, preorderAll_mapAll f children]

theorem preorderAll_mapAll (f : α → β) (trees : List (Tree α)) :
    preorderAll (mapAll f trees) = (preorderAll trees).map f := by
  cases trees with
  | nil => rfl
  | cons tree rest =>
      simp only [mapAll, preorderAll, List.map_append, preorder_map f tree,
        preorderAll_mapAll f rest]

end

mutual

theorem preorder_numbered_fst (first : Nat) (tree : Tree α) :
    (tree.numbered first).preorder.map Prod.fst = List.range' first tree.size := by
  cases tree with
  | node value children =>
      simp only [numbered, preorder, List.map_cons, size, List.range'_succ,
        preorderAll_numberedAll_fst (first + 1) children]

theorem preorderAll_numberedAll_fst (first : Nat) (trees : List (Tree α)) :
    (preorderAll (numberedAll first trees)).map Prod.fst = List.range' first (sizeAll trees) := by
  cases trees with
  | nil => rfl
  | cons tree rest =>
      simp only [numberedAll, preorderAll, List.map_append, sizeAll, List.range'_append_1.symm,
        preorder_numbered_fst first tree, preorderAll_numberedAll_fst (first + tree.size) rest]

end

theorem nodup_numbers (first : Nat) (tree : Tree α) :
    ((tree.numbered first).preorder.map Prod.fst).Nodup := by
  rw [preorder_numbered_fst]
  exact List.nodup_range'

theorem length_preorder_numbered (first : Nat) (tree : Tree α) :
    (tree.numbered first).preorder.length = tree.size := by
  have numbers := congrArg List.length (preorder_numbered_fst first tree)
  simpa using numbers

theorem length_preorder (tree : Tree α) : tree.preorder.length = tree.size := by
  rw [← length_preorder_numbered 0 tree, ← map_numbered 0 tree, preorder_map, List.length_map,
    map_numbered]

theorem subtreesAll_eq_flatMap (trees : List (Tree α)) :
    subtreesAll trees = trees.flatMap subtrees := by
  induction trees with
  | nil => rfl
  | cons tree rest restIH => simp [subtreesAll, restIH]

theorem self_mem_subtrees (tree : Tree α) : tree ∈ tree.subtrees := by
  cases tree
  exact List.mem_cons_self

theorem mem_subtrees_of_child {tree child : Tree α} (member : child ∈ tree.children) :
    child ∈ tree.subtrees := by
  cases tree with
  | node value children =>
      simp only [subtrees, subtreesAll_eq_flatMap, List.mem_cons, List.mem_flatMap]
      exact .inr ⟨child, member, self_mem_subtrees child⟩

mutual

theorem mem_subtrees_trans {part inner : Tree α} (tree : Tree α)
    (outside : part ∈ tree.subtrees) (inside : inner ∈ part.subtrees) : inner ∈ tree.subtrees := by
  cases tree with
  | node value children =>
      rcases List.mem_cons.mp outside with rfl | below
      · exact inside
      · exact List.mem_cons_of_mem _ (mem_subtreesAll_trans children below inside)

theorem mem_subtreesAll_trans {part inner : Tree α} (trees : List (Tree α))
    (outside : part ∈ subtreesAll trees) (inside : inner ∈ part.subtrees) :
    inner ∈ subtreesAll trees := by
  cases trees with
  | nil => cases outside
  | cons tree rest =>
      rcases List.mem_append.mp outside with first | later
      · exact List.mem_append_left _ (mem_subtrees_trans tree first inside)
      · exact List.mem_append_right _ (mem_subtreesAll_trans rest later inside)

end

mutual

theorem preorder_eq_subtrees (tree : Tree α) : tree.preorder = tree.subtrees.map value := by
  cases tree with
  | node value children =>
      simp only [preorder, subtrees, List.map_cons, Tree.value, preorderAll_eq_subtreesAll children]

theorem preorderAll_eq_subtreesAll (trees : List (Tree α)) :
    preorderAll trees = (subtreesAll trees).map value := by
  cases trees with
  | nil => rfl
  | cons tree rest =>
      simp only [preorderAll, subtreesAll, List.map_append, preorder_eq_subtrees tree,
        preorderAll_eq_subtreesAll rest]

end

theorem preorderAll_eq_flatMap (trees : List (Tree α)) :
    preorderAll trees = trees.flatMap preorder := by
  induction trees with
  | nil => rfl
  | cons tree rest restIH => simp [preorderAll, restIH]

mutual

theorem subtrees_map (f : α → β) (tree : Tree α) :
    (tree.map f).subtrees = tree.subtrees.map (map f) := by
  cases tree with
  | node value children =>
      simp only [map, subtrees, List.map_cons, subtreesAll_mapAll f children]

theorem subtreesAll_mapAll (f : α → β) (trees : List (Tree α)) :
    subtreesAll (mapAll f trees) = (subtreesAll trees).map (map f) := by
  cases trees with
  | nil => rfl
  | cons tree rest =>
      simp only [mapAll, subtreesAll, List.map_append, subtrees_map f tree,
        subtreesAll_mapAll f rest]

end

/-- The children of a numbered tree hold the values of the tree's children. -/
theorem children_numbered (first : Nat) (tree : Tree α) :
    (tree.numbered first).children.map (fun child => child.value.2) = tree.children.map value := by
  have same := congrArg (fun part => part.children.map value) (map_numbered first tree)
  simpa [Function.comp_def] using same

mutual

/-- Every subtree of a numbered tree is a part of the tree, numbered from its own first
number on. -/
theorem subtrees_numbered {first : Nat} (tree : Tree α) {part : Tree (Nat × α)}
    (member : part ∈ (tree.numbered first).subtrees) :
    ∃ start plain, part = plain.numbered start ∧ plain ∈ tree.subtrees ∧
      first ≤ start ∧ start + plain.size ≤ first + tree.size := by
  cases tree with
  | node value children =>
      rcases List.mem_cons.mp member with rfl | below
      · exact ⟨first, .node value children, rfl, self_mem_subtrees _, Nat.le_refl _, Nat.le_refl _⟩
      · obtain ⟨start, plain, same, inside, lower, upper⟩ :=
          subtreesAll_numberedAll children below
        refine ⟨start, plain, same, List.mem_cons_of_mem _ inside, by omega, ?_⟩
        simp only [size]
        omega

theorem subtreesAll_numberedAll {first : Nat} (trees : List (Tree α)) {part : Tree (Nat × α)}
    (member : part ∈ subtreesAll (numberedAll first trees)) :
    ∃ start plain, part = plain.numbered start ∧ plain ∈ subtreesAll trees ∧
      first ≤ start ∧ start + plain.size ≤ first + sizeAll trees := by
  cases trees with
  | nil => cases member
  | cons tree rest =>
      simp only [sizeAll]
      rcases List.mem_append.mp member with within | later
      · obtain ⟨start, plain, same, inside, lower, upper⟩ := subtrees_numbered tree within
        exact ⟨start, plain, same, List.mem_append_left _ inside, lower, by omega⟩
      · obtain ⟨start, plain, same, inside, lower, upper⟩ := subtreesAll_numberedAll rest later
        exact ⟨start, plain, same, List.mem_append_right _ inside, by omega, by omega⟩

end

end RuleChart.Tree
