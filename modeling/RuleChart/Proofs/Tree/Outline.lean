import RuleChart.Proofs.Tree.Lookup
import RuleChart.Tree.Outline

namespace RuleChart

/-! What an outline lists.

What stands too deep is left out together with all that is below it, and how deep it stands is read
off the node.  In a built tree a node stands one level below the one above it, so nothing below a
node that is left out would have been listed: an outline is its tree in preorder less the nodes that
stand too deep.
-/

namespace NodeTree

/-- The entries of an outline with a stack: the trees that are still to be shown, the next one
first. -/
def unroll (limit : Option Int) (base : Int) : List NodeTree → List String
  | [] => []
  | .node node children :: waiting =>
      let relative := node.depth - base
      if limit.any (· < relative) then unroll limit base waiting
      else outlineEntry relative node :: unroll limit base (children ++ waiting)
termination_by stack => Tree.sizeAll stack
decreasing_by
  all_goals
    simp only [Tree.sizeAll_append, Tree.sizeAll, Tree.size]
    omega

variable {limit : Option Int} {base : Int} {tree : NodeTree}

theorem outlineEntriesAll_eq_flatMap (limit : Option Int) (base : Int) (trees : List NodeTree) :
    outlineEntriesAll limit base trees = trees.flatMap (outlineEntries limit base) := by
  induction trees with
  | nil => rfl
  | cons tree rest restIH => rw [outlineEntriesAll, restIH, List.flatMap_cons]

theorem unroll_eq_entries (stack : List NodeTree) :
    unroll limit base stack = outlineEntriesAll limit base stack := by
  fun_induction unroll limit base stack with
  | case1 => rfl
  | case2 node children waiting relative deep waitingIH =>
      rw [waitingIH, outlineEntriesAll, outlineEntries, if_pos deep, List.nil_append]
  | case3 node children waiting relative near onwardIH =>
      rw [onwardIH, outlineEntriesAll, outlineEntries, if_neg near]
      simp only [outlineEntriesAll_eq_flatMap, List.flatMap_append, List.cons_append, relative]

theorem outlineEntry_eq (relative : Int) (node : Node) :
    outlineEntry relative node =
      String.join (List.replicate relative.toNat "  ") ++ "[" ++ node.kind.name ++ "] " ++
        node.label := by
  have blanks (levels : Nat) :
      "".pushn ' ' (2 * levels) = String.join (List.replicate levels "  ") := by
    induction levels with
    | zero => rfl
    | succ levels levelsIH =>
        have more : "".pushn ' ' (2 * levels + 2) = "".pushn ' ' (2 * levels) ++ "  " := by
          rw [← String.toList_inj]
          simp [String.pushn, Nat.repeat]
        rw [Nat.mul_succ, more, levelsIH, List.replicate_succ']
        simp
  rw [outlineEntry, blanks]

/-- Every node stands one level below the node above it. -/
def Stepped (tree : NodeTree) : Prop :=
  ∀ part ∈ tree.subtrees, ∀ child ∈ part.children, child.value.depth = part.value.depth + 1

theorem Stepped.of_mem (stepped : tree.Stepped) {part : NodeTree} (member : part ∈ tree.subtrees) :
    part.Stepped :=
  fun inner inside => stepped inner (Tree.mem_subtrees_trans tree member inside)

theorem Stepped.of_child (stepped : tree.Stepped) {child : NodeTree}
    (member : child ∈ tree.children) : child.Stepped :=
  stepped.of_mem (Tree.mem_subtrees_of_child member)

theorem build_stepped (place : Place) (rule : Rule) (cache : LabelCache) :
    Stepped (build place rule cache).1 :=
  fun _ member child below => (linked_build place rule cache member child below).depth

/-- No node stands above the root of its tree. -/
theorem Stepped.depth_le (stepped : tree.Stepped) {node : Node} (member : node ∈ tree.preorder) :
    tree.value.depth ≤ node.depth := by
  induction tree using Tree.children_induction with
  | step tree childIH =>
      cases tree with
      | node root children =>
          rcases List.mem_cons.mp member with rfl | below
          · exact Int.le_refl _
          · rw [Tree.preorderAll_eq_flatMap] at below
            obtain ⟨child, listed, inside⟩ := List.mem_flatMap.mp below
            have deeper := childIH child listed (stepped.of_child listed) inside
            have next := stepped _ (Tree.self_mem_subtrees _) child listed
            simp only [Tree.value_node] at next ⊢
            omega

/-- The nodes of a tree that are not more than `limit` levels below depth `base`, in preorder. -/
def listed (limit : Option Int) (base : Int) (tree : NodeTree) : List Node :=
  tree.preorder.filter (fun node => ∀ most ∈ limit, node.depth - base ≤ most)

theorem tooDeep_iff (limit : Option Int) (relative : Int) :
    limit.any (· < relative) = true ↔ ¬ ∀ most ∈ limit, relative ≤ most := by
  cases limit <;> simp

theorem Stepped.listed_nil (stepped : tree.Stepped)
    (deep : ¬ ∀ most ∈ limit, tree.value.depth - base ≤ most) : listed limit base tree = [] := by
  rw [listed, List.filter_eq_nil_iff]
  intro node member
  have below := stepped.depth_le member
  rw [decide_eq_true_eq]
  intro near
  refine deep fun most given => ?_
  have room := near most given
  omega

theorem listed_node {node : Node} (near : ∀ most ∈ limit, node.depth - base ≤ most)
    (children : List NodeTree) :
    listed limit base (.node node children) = node :: children.flatMap (listed limit base) := by
  rw [listed, Tree.preorder, List.filter_cons_of_pos (by simpa using near),
    Tree.preorderAll_eq_flatMap, List.filter_flatMap]
  rfl

/-- What is left out below a node that stands too deep would not have been listed anyway. -/
theorem Stepped.outlineEntries_eq (stepped : tree.Stepped) (limit : Option Int) (base : Int) :
    outlineEntries limit base tree =
      (listed limit base tree).map (fun node => outlineEntry (node.depth - base) node) := by
  induction tree using Tree.children_induction with
  | step tree childIH =>
      cases tree with
      | node root children =>
          by_cases near : ∀ most ∈ limit, root.depth - base ≤ most
          · have below (child : NodeTree) (member : child ∈ children) :
                outlineEntries limit base child = (listed limit base child).map
                  (fun node => outlineEntry (node.depth - base) node) :=
              childIH child member (stepped.of_child member)
            rw [outlineEntries, if_neg (mt (tooDeep_iff limit _).mp (not_not_intro near)),
              listed_node near, List.map_cons, List.map_flatMap, outlineEntriesAll_eq_flatMap,
              List.flatMap_congr below]
          · rw [outlineEntries, if_pos ((tooDeep_iff limit _).mpr near), stepped.listed_nil near,
              List.map_nil]

/-- The outline of a part of a built tree has one entry for each node of the part that is not more
than `limit` levels below its root, in preorder, whether collapsed or not.  The stack does the same,
and what is below a node that it drops is too deep as well. -/
theorem outline_lists_preorder (place : Place) (rule : Rule) (cache : LabelCache)
    (limit : Option Int) {part : NodeTree}
    (member : part ∈ (build place rule cache).1.subtrees) :
    outline limit part = "\n".intercalate
        ((listed limit part.value.depth part).map
          (fun node => String.join (List.replicate (node.depth - part.value.depth).toNat "  ") ++
            "[" ++ node.kind.name ++ "] " ++ node.label)) ∧
      outline limit part = "\n".intercalate (unroll limit part.value.depth [part]) ∧
      ∀ dropped ∈ part.subtrees, ∀ node ∈ dropped.preorder, dropped.value.depth ≤ node.depth := by
  have stepped : part.Stepped := (build_stepped place rule cache).of_mem member
  refine ⟨?_, ?_, fun dropped inside node below => (stepped.of_mem inside).depth_le below⟩
  · rw [outline, stepped.outlineEntries_eq]
    simp only [outlineEntry_eq]
  · rw [outline, unroll_eq_entries, outlineEntriesAll, outlineEntriesAll, List.append_nil]

/-- A list at depth 3 starts out collapsed, and its items are listed down to the limit. -/
theorem outline_lists_preorder_of_collapsed :
    let rule : Rule := .list [.string "a", .list [.list [.null], .apply "var" [] []]]
    let tree := (build { Place.root with depth := 2 } rule (LabelCache.new 8)).1
    ∃ part ∈ tree.subtrees, part.value.expanded = false ∧
      outline (some 1) part =
        "[array_literal] [2 items]\n  [array_literal] [1 items]\n  [variable] (current item)" := by
  intro rule tree
  let part := tree.children.get ⟨1, by decide +kernel⟩
  have member : part ∈ tree.subtrees := Tree.mem_subtrees_of_child (List.get_mem _ _)
  have lists := outline_lists_preorder _ rule _ (some 1) member
  exact ⟨part, member, by decide +kernel, lists.1.trans (by decide +kernel)⟩

end NodeTree

end RuleChart
