import RuleChart.Proofs.Tree.Address

namespace RuleChart.Tree

/-! What holds at every node of a tree.

A property of a node may speak of its level, of its value and of the trees right below it.
`Throughout` says that it holds everywhere, and an induction on it meets every node with the
nodes below it already dealt with.
-/

variable {α β : Type} {holds : Nat → α → List (Tree α) → Prop} {level : Nat} {tree : Tree α}

theorem size_le_of_mem {trees : List (Tree α)} (member : tree ∈ trees) :
    tree.size ≤ sizeAll trees := by
  induction trees with
  | nil => cases member
  | cons first rest restIH =>
      rw [sizeAll]
      rcases List.mem_cons.mp member with rfl | later
      · exact Nat.le_add_right _ _
      · exact Nat.le_add_left_of_le (restIH later)

theorem size_lt_of_child {child : Tree α} (member : child ∈ tree.children) :
    child.size < tree.size := by
  cases tree with
  | node value children => exact Nat.lt_succ_of_le (size_le_of_mem member)

/-- Induction on a tree from the trees right below it. -/
@[elab_as_elim]
theorem children_induction {motive : Tree α → Prop}
    (step : ∀ tree, (∀ child ∈ tree.children, motive child) → motive tree) (tree : Tree α) :
    motive tree :=
  step tree (fun child _member => children_induction step child)
termination_by tree.size
decreasing_by exact size_lt_of_child _member

inductive Throughout (holds : Nat → α → List (Tree α) → Prop) : Nat → Tree α → Prop where
  | node {level : Nat} {value : α} {children : List (Tree α)} (here : holds level value children)
      (below : ∀ child ∈ children, Throughout holds (level + 1) child) :
      Throughout holds level (.node value children)

theorem Throughout.map {f : α → β} {holds' : Nat → β → List (Tree β) → Prop}
    (carries : ∀ level value children, holds level value children →
      holds' level (f value) (children.map (Tree.map f)))
    (everywhere : tree.Throughout holds level) : (tree.map f).Throughout holds' level := by
  induction everywhere with
  | @node level value children here below belowIH =>
      rw [Tree.map, mapAll_eq_map]
      refine .node (carries level value children here) ?_
      intro child member
      obtain ⟨original, inside, rfl⟩ := List.mem_map.mp member
      exact belowIH original inside

/-- What every node hands on to the nodes right below it, and the root has, all nodes have. -/
theorem Throughout.carry (inherits : Nat → α → Prop)
    (passes : ∀ level value children, holds level value children → inherits level value →
      ∀ child ∈ children, inherits (level + 1) child.value)
    (everywhere : tree.Throughout holds level) (root : inherits level tree.value) :
    tree.Throughout (fun level value children =>
      holds level value children ∧ inherits level value) level := by
  induction everywhere with
  | @node level value children here below belowIH =>
      have handed := passes level value children here root
      exact .node ⟨here, root⟩ (fun child member => belowIH child member (handed child member))

theorem Throughout.of_get? (everywhere : tree.Throughout holds level) {address : List Nat}
    {value : α} (found : tree.get? address = some value) :
    ∃ children, holds (level + address.length) value children := by
  induction address generalizing tree level with
  | nil =>
      cases everywhere with
      | node here below =>
          cases found
          exact ⟨_, here⟩
  | cons index address addressIH =>
      cases everywhere with
      | node here below =>
          rw [get?_cons] at found
          obtain ⟨child, listed, found⟩ := Option.bind_eq_some_iff.mp found
          obtain ⟨children, holds⟩ := addressIH (below child (List.mem_of_getElem? listed)) found
          rw [Nat.add_right_comm] at holds
          exact ⟨children, holds⟩

/-- The same for a property that does not speak of the level. -/
theorem Throughout.inherit {inherits : α → Prop}
    (passes : ∀ level value children, holds level value children → inherits value →
      ∀ child ∈ children, inherits child.value)
    (everywhere : tree.Throughout holds level) (root : inherits tree.value) :
    ∀ value ∈ tree.preorder, inherits value ∧ ∃ level children, holds level value children := by
  intro value member
  have carried := everywhere.carry (fun _ => inherits) passes root
  obtain ⟨address, found⟩ := mem_preorder_iff.mp member
  obtain ⟨children, here, own⟩ := carried.of_get? found
  exact ⟨own, level + address.length, children, here⟩

end RuleChart.Tree
