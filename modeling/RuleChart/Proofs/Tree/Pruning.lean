import Mathlib.Data.List.Basic
import RuleChart.Proofs.Tree.Throughout

namespace RuleChart.Tree

variable {α β κ : Type}

mutual

/-- A tree without what is below the values that stop. -/
def pruned (stops : α → Bool) : Tree α → Tree α
  | .node value children => .node value (if stops value then [] else prunedAll stops children)

def prunedAll (stops : α → Bool) : List (Tree α) → List (Tree α)
  | [] => []
  | tree :: rest => tree.pruned stops :: prunedAll stops rest

end

theorem prunedAll_eq_map (stops : α → Bool) (trees : List (Tree α)) :
    prunedAll stops trees = trees.map (pruned stops) := by
  induction trees with
  | nil => rfl
  | cons tree rest restIH => simp [prunedAll, restIH]

@[simp] theorem value_pruned (stops : α → Bool) (tree : Tree α) :
    (tree.pruned stops).value = tree.value := by
  cases tree
  rfl

mutual

theorem map_pruned (f : α → β) (stops : β → Bool) (tree : Tree α) :
    (tree.pruned (fun value => stops (f value))).map f = (tree.map f).pruned stops := by
  cases tree with
  | node value children =>
      have below := mapAll_prunedAll f stops children
      simp only [pruned, map]
      split
      · rfl
      · rw [below]

theorem mapAll_prunedAll (f : α → β) (stops : β → Bool) (trees : List (Tree α)) :
    mapAll f (prunedAll (fun value => stops (f value)) trees) =
      prunedAll stops (mapAll f trees) := by
  cases trees with
  | nil => rfl
  | cons tree rest =>
      simp only [prunedAll, mapAll, map_pruned f stops tree, mapAll_prunedAll f stops rest]

end

/-- A child is kept exactly if its parent is kept and does not stop. -/
def Keeps (kept stops : α → Bool) (tree : Tree α) : Prop :=
  ∀ part ∈ tree.subtrees, ∀ child ∈ part.children,
    kept child.value = (kept part.value && !stops part.value)

section Keeps

variable {kept stops : α → Bool} {tree : Tree α}

theorem Keeps.below (keeps : tree.Keeps kept stops) {child : Tree α}
    (member : child ∈ tree.children) : child.Keeps kept stops :=
  fun part inside => keeps part (mem_subtrees_trans tree (mem_subtrees_of_child member) inside)

theorem Keeps.child (keeps : tree.Keeps kept stops) {child : Tree α}
    (member : child ∈ tree.children) :
    kept child.value = (kept tree.value && !stops tree.value) :=
  keeps tree (self_mem_subtrees tree) child member

theorem filter_preorder_of_dropped (keeps : tree.Keeps kept stops)
    (dropped : kept tree.value = false) : tree.preorder.filter kept = [] := by
  induction tree using children_induction with
  | step tree childIH =>
      cases tree with
      | node value children =>
          have below (child : Tree α) (member : child ∈ children) :
              child.preorder.filter kept = [] :=
            childIH child member (keeps.below member)
              ((keeps.child member).trans (by rw [dropped, Bool.false_and]))
          rw [preorder, preorderAll_eq_flatMap, List.filter_cons_of_neg (by simpa using dropped),
            List.filter_flatMap, List.flatMap_eq_nil_iff]
          exact below

theorem preorder_pruned (keeps : tree.Keeps kept stops) (root : kept tree.value = true) :
    (tree.pruned stops).preorder = tree.preorder.filter kept := by
  induction tree using children_induction with
  | step tree childIH =>
      cases tree with
      | node value children =>
          rw [value_node] at root
          have child (child : Tree α) (member : child ∈ children) :
              kept child.value = !stops value := by
            rw [keeps.child member, value_node, root, Bool.true_and]
          rw [pruned, preorder, preorder, List.filter_cons_of_pos root, prunedAll_eq_map,
            preorderAll_eq_flatMap, preorderAll_eq_flatMap, List.filter_flatMap]
          cases stop : stops value with
          | true =>
              have below : children.flatMap (fun child => child.preorder.filter kept) = [] := by
                rw [List.flatMap_eq_nil_iff]
                intro part member
                exact filter_preorder_of_dropped (keeps.below member)
                  ((child part member).trans (by rw [stop, Bool.not_true]))
              rw [below]
              rfl
          | false =>
              simp only [Bool.false_eq_true, if_false, List.flatMap_map]
              refine congrArg (value :: ·) (List.flatMap_congr fun part member => ?_)
              exact childIH part member (keeps.below member)
                ((child part member).trans (by rw [stop, Bool.not_false]))

end Keeps

mutual

/-- If the keys of a tree are ranked in preorder, the ranks are the numbers of the tree. -/
theorem numbered_map_snd (rank : κ → Nat) (first : Nat) (tree : Tree (κ × β))
    (ranks : tree.preorder.map (fun entry => rank entry.1) = List.range' first tree.size) :
    (tree.map Prod.snd).numbered first = tree.map (fun entry => (rank entry.1, entry.2)) := by
  cases tree with
  | node entry children =>
      simp only [preorder, List.map_cons, size, List.range'_succ, List.cons.injEq] at ranks
      have below := numberedAll_mapAll_snd rank (first + 1) children ranks.2
      simp only [map, numbered, below, ranks.1]

theorem numberedAll_mapAll_snd (rank : κ → Nat) (first : Nat) (trees : List (Tree (κ × β)))
    (ranks : (preorderAll trees).map (fun entry => rank entry.1) =
      List.range' first (sizeAll trees)) :
    numberedAll first (mapAll Prod.snd trees) =
      mapAll (fun entry => (rank entry.1, entry.2)) trees := by
  cases trees with
  | nil => rfl
  | cons tree rest =>
      rw [preorderAll, List.map_append, sizeAll, ← List.range'_append_1] at ranks
      obtain ⟨own, later⟩ := List.append_inj ranks (by simp [length_preorder])
      simp only [mapAll, numberedAll, size_map, numbered_map_snd rank first tree own,
        numberedAll_mapAll_snd rank (first + tree.size) rest later]

end

end RuleChart.Tree
