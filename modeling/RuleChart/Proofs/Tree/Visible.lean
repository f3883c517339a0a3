import RuleChart.Proofs.Tree.Address
import RuleChart.Tree.Edit

namespace RuleChart

open RuleChart.Tree (located locatedAll mem_locatedAll get?_cons)

namespace NodeTree

/-- The children that stand below a node. -/
def unfolded (tree : NodeTree) : List NodeTree :=
  if tree.value.expanded then tree.children else []

theorem sizeAll_unfolded (tree : NodeTree) : Tree.sizeAll tree.unfolded < tree.size := by
  cases tree with
  | node node children =>
      rw [unfolded, Tree.size]
      split
      · exact Nat.lt_succ_self _
      · exact Nat.succ_pos _

/-- The visible parts with a stack: the trees that are still to be listed, the next one first. -/
def sweep : List NodeTree → List NodeTree
  | [] => []
  | tree :: waiting => tree :: sweep (tree.unfolded ++ waiting)
termination_by stack => Tree.sizeAll stack
decreasing_by
  have smaller := sizeAll_unfolded tree
  simp only [Tree.sizeAll_append, Tree.sizeAll]
  omega

theorem sweep_append (stack waiting : List NodeTree) :
    sweep (stack ++ waiting) = sweep stack ++ sweep waiting := by
  fun_induction sweep stack with
  | case1 => rfl
  | case2 tree rest restIH =>
      rw [List.cons_append, sweep, ← List.append_assoc, restIH, List.cons_append]

/-- One turn lists a tree and leaves what is to be listed of it. -/
theorem visible_eq_cons (tree : NodeTree) :
    visible tree = tree.value :: visibleAll tree.unfolded := by
  cases tree with
  | node node children =>
      rw [visible, unfolded, Tree.value_node, Tree.children_node]
      cases node.expanded <;> rfl

theorem visibleAll_append (left right : List NodeTree) :
    visibleAll (left ++ right) = visibleAll left ++ visibleAll right := by
  induction left with
  | nil => rfl
  | cons tree rest restIH =>
      rw [List.cons_append, visibleAll, visibleAll, restIH, List.append_assoc]

theorem sweep_values (stack : List NodeTree) : (sweep stack).map Tree.value = visibleAll stack := by
  fun_induction sweep stack with
  | case1 => rfl
  | case2 tree waiting onwardIH =>
      rw [List.map_cons, onwardIH, visibleAll_append, visibleAll, visible_eq_cons,
        List.cons_append]

/-- The stack comes to the visible nodes and in the same order. -/
theorem visible_eq_sweep (tree : NodeTree) : visible tree = (sweep [tree]).map Tree.value := by
  rw [sweep_values, visibleAll, visibleAll, List.append_nil]

/-- Whether all nodes above an address are expanded. -/
def expandedAbove (tree : NodeTree) (address : List Nat) : Bool :=
  (List.range address.length).all fun level => (tree.get? (address.take level)).any Node.expanded

mutual

/-- The visible part of a tree. -/
def shown : NodeTree → NodeTree
  | .node node children => .node node (if node.expanded then shownAll children else [])

def shownAll : List NodeTree → List NodeTree
  | [] => []
  | tree :: rest => shown tree :: shownAll rest

end

mutual

theorem visible_eq_preorder (tree : NodeTree) : visible tree = (shown tree).preorder := by
  cases tree with
  | node node children =>
      cases expanded : node.expanded with
      | true => simp [visible, shown, Tree.preorder, expanded, visibleAll_eq_preorderAll children]
      | false => simp [visible, shown, Tree.preorder, Tree.preorderAll, expanded]

theorem visibleAll_eq_preorderAll (trees : List NodeTree) :
    visibleAll trees = Tree.preorderAll (shownAll trees) := by
  cases trees with
  | nil => rfl
  | cons tree rest =>
      simp only [visibleAll, shownAll, Tree.preorderAll, visible_eq_preorder tree,
        visibleAll_eq_preorderAll rest]

end

@[simp] theorem expandedAbove_nil (tree : NodeTree) : expandedAbove tree [] = true := rfl

theorem expandedAbove_cons {node : Node} {children : List NodeTree} {index : Nat}
    {child : NodeTree} (found : children[index]? = some child) (address : List Nat) :
    expandedAbove (.node node children) (index :: address) =
      (node.expanded && expandedAbove child address) := by
  simp [expandedAbove, List.range_succ_eq_map, List.all_map, Function.comp_def, get?_cons, found]

theorem expandedAbove_concat (tree : NodeTree) (address : List Nat) (index : Nat) :
    expandedAbove tree (address ++ [index]) =
      (expandedAbove tree address && (tree.get? address).any Node.expanded) := by
  have before : (List.range address.length).all
      (fun level => (tree.get? ((address ++ [index]).take level)).any Node.expanded) =
        expandedAbove tree address := by
    rw [expandedAbove, Bool.eq_iff_iff, List.all_eq_true, List.all_eq_true]
    refine forall_congr' fun level => imp_congr_right fun above => ?_
    rw [List.take_append_of_le_length (Nat.le_of_lt (List.mem_range.mp above))]
  rw [expandedAbove, List.length_append, List.length_singleton, List.range_succ, List.all_append,
    before]
  simp

mutual

theorem located_shown (tree : NodeTree) :
    (shown tree).located = tree.located.filter (fun entry => expandedAbove tree entry.1) := by
  cases tree with
  | node node children =>
      simp only [shown, located, List.filter_cons, expandedAbove_nil, if_true]
      cases expanded : node.expanded with
      | true =>
          rw [if_pos rfl, locatedAll_shownAll children 0 (expandedAbove (.node node children))]
          intro place child address found
          rw [Nat.zero_add, expandedAbove_cons found, expanded, Bool.true_and]
      | false =>
          have hidden : ∀ entry ∈ locatedAll 0 children,
              ¬ expandedAbove (.node node children) entry.1 = true := by
            intro entry member
            obtain ⟨place, child, address, found, -, same⟩ := mem_locatedAll member
            rw [same, Nat.zero_add, expandedAbove_cons found, expanded]
            simp
          rw [List.filter_eq_nil_iff.mpr hidden]
          rfl

/-- `above` says of siblings from `index` on which nodes below them are visible. -/
theorem locatedAll_shownAll (trees : List NodeTree) (index : Nat) (above : List Nat → Bool)
    (agrees : ∀ place child address, trees[place]? = some child →
      above ((index + place) :: address) = expandedAbove child address) :
    locatedAll index (shownAll trees) =
      (locatedAll index trees).filter (fun entry => above entry.1) := by
  cases trees with
  | nil => rfl
  | cons tree rest =>
      have first : ∀ entry : List Nat × Node,
          above (index :: entry.1) = expandedAbove tree entry.1 :=
        fun entry => agrees 0 tree entry.1 rfl
      have later := locatedAll_shownAll rest (index + 1) above fun place child address found => by
        rw [Nat.add_right_comm, Nat.add_assoc]
        exact agrees (place + 1) child address found
      simp only [shownAll, locatedAll, List.filter_append, List.filter_map, Function.comp_def,
        first, located_shown tree, later]

end

/-- The visible nodes in preorder are those that have expanded nodes above them only. -/
theorem visible_eq_filter (tree : NodeTree) :
    visible tree =
      (tree.located.filter (fun entry => expandedAbove tree entry.1)).map Prod.snd := by
  rw [visible_eq_preorder, ← Tree.located_snd, located_shown]

end NodeTree

end RuleChart
