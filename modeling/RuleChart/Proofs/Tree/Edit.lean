import RuleChart.Proofs.Tree.Visible

namespace RuleChart

/-! Edits of a tree are edits of its flags.

All that an edit changes is which nodes are expanded, and what it makes of these flags, read in
preorder, depends on the ids of the nodes but not on the shape of the tree.
-/

inductive Edit where
  | toggle (id : String)
  | expandAll
  | collapseAll

/-- What an edit makes of the flags of nodes with the given ids. -/
def Edit.onFlags (ids : List String) (flags : List Bool) : Edit → List Bool
  | .toggle id =>
      match ids.idxOf? id with
      | some index => flags.modify index (!·)
      | none => flags
  | .expandAll => flags.map (fun _ => true)
  | .collapseAll => (flags.map (fun _ => false)).set 0 true

namespace NodeTree

def edit (tree : NodeTree) : Edit → NodeTree
  | .toggle id => toggle id tree
  | .expandAll => expandAll tree
  | .collapseAll => collapseAll tree

def ids (tree : NodeTree) : List String := tree.preorder.map Node.id

def flags (tree : NodeTree) : List Bool := tree.preorder.map Node.expanded

/-- A tree with all that its nodes hold beside their flags. -/
def unflagged (tree : NodeTree) : NodeTree := tree.map (setExpanded false)

@[simp] theorem setExpanded_setExpanded (first second : Bool) (node : Node) :
    setExpanded second (setExpanded first node) = setExpanded second node := rfl

/-- The nodes that come before what is below the ancestors. -/
def nodesBefore : List Ancestor → List Node
  | [] => []
  | parent :: above => nodesBefore above ++ parent.node :: Tree.preorderAll parent.left.reverse

def nodesAfter : List Ancestor → List Node
  | [] => []
  | parent :: above => Tree.preorderAll parent.right ++ nodesAfter above

theorem preorderAll_append (left right : List NodeTree) :
    Tree.preorderAll (left ++ right) = Tree.preorderAll left ++ Tree.preorderAll right := by
  induction left with
  | nil => rfl
  | cons tree rest restIH => simp [Tree.preorderAll, restIH]

theorem preorder_rebuild (tree : NodeTree) (above : List Ancestor) :
    (rebuild tree above).preorder = nodesBefore above ++ tree.preorder ++ nodesAfter above := by
  induction above generalizing tree with
  | nil => simp [rebuild, nodesBefore, nodesAfter]
  | cons parent above aboveIH =>
      simp [rebuild, aboveIH, nodesBefore, nodesAfter, Tree.preorder, preorderAll_append,
        Tree.preorderAll]

theorem unflagged_rebuild {tree changed : NodeTree} (same : tree.unflagged = changed.unflagged)
    (above : List Ancestor) :
    (rebuild tree above).unflagged = (rebuild changed above).unflagged := by
  induction above generalizing tree changed with
  | nil => exact same
  | cons parent above aboveIH =>
      refine aboveIH ?_
      unfold unflagged at same ⊢
      simp [Tree.map, Tree.mapAll_eq_map, same]

mutual

theorem id_ne_of_locate?_none {id : String} {above : List Ancestor} (tree : NodeTree)
    (absent : locate? id above tree = none) : ∀ node ∈ tree.preorder, node.id ≠ id := by
  cases tree with
  | node root children =>
      simp only [locate?] at absent
      split at absent
      · cases absent
      · rename_i other
        intro node member
        rcases List.mem_cons.mp member with rfl | below
        · exact other
        · exact id_ne_of_locateAll?_none children absent node below

theorem id_ne_of_locateAll?_none {id : String} {parent : Node} {above : List Ancestor}
    {left : List NodeTree} (trees : List NodeTree)
    (absent : locateAll? id parent above left trees = none) :
    ∀ node ∈ Tree.preorderAll trees, node.id ≠ id := by
  cases trees with
  | nil => simp [Tree.preorderAll]
  | cons tree rest =>
      simp only [locateAll?] at absent
      split at absent
      · cases absent
      · rename_i absentFirst
        intro node member
        rcases List.mem_append.mp member with within | later
        · exact id_ne_of_locate?_none tree absentFirst node within
        · exact id_ne_of_locateAll?_none rest absent node later

end

/-- What the search for an id has found in a tree: its first node with the id. -/
structure Located (id : String) (tree : NodeTree) (found : NodeTree × List Ancestor) : Prop where
  named : found.1.value.id = id
  restored : rebuild found.1 found.2 = tree
  first : ∀ node ∈ nodesBefore found.2, node.id ≠ id

mutual

theorem located_of_locate? {id : String} {above : List Ancestor} (tree : NodeTree)
    {found : NodeTree × List Ancestor} (result : locate? id above tree = some found)
    (before : ∀ node ∈ nodesBefore above, node.id ≠ id) :
    Located id (rebuild tree above) found := by
  cases tree with
  | node root children =>
      simp only [locate?] at result
      split at result
      · rename_i named
        cases result
        exact ⟨named, rfl, before⟩
      · rename_i other
        refine located_of_locateAll? children result ?_
        intro node member
        rcases List.mem_append.mp member with outside | same
        · exact before node outside
        · obtain rfl : node = root := by simpa [Tree.preorderAll] using same
          exact other

theorem located_of_locateAll? {id : String} {parent : Node} {above : List Ancestor}
    {left : List NodeTree} (trees : List NodeTree) {found : NodeTree × List Ancestor}
    (result : locateAll? id parent above left trees = some found)
    (before : ∀ node ∈ nodesBefore above ++ parent :: Tree.preorderAll left.reverse,
      node.id ≠ id) :
    Located id (rebuild (.node parent (left.reverse ++ trees)) above) found := by
  cases trees with
  | nil => cases result
  | cons tree rest =>
      simp only [locateAll?] at result
      split at result
      · rename_i inFirst
        cases result
        exact located_of_locate? tree inFirst before
      · rename_i absent
        have passed : ∀ node ∈ nodesBefore above ++
            parent :: Tree.preorderAll (tree :: left).reverse, node.id ≠ id := by
          intro node member
          rw [List.reverse_cons, preorderAll_append, ← List.cons_append, ← List.append_assoc]
            at member
          rcases List.mem_append.mp member with earlier | within
          · exact before node earlier
          · exact id_ne_of_locate?_none tree absent node (by simpa [Tree.preorderAll] using within)
        simpa using located_of_locateAll? rest result passed

end

theorem idxOf?_append_cons {id : String} {before : List String} (after : List String)
    (fresh : id ∉ before) : (before ++ id :: after).idxOf? id = some before.length := by
  induction before with
  | nil => simp [List.idxOf?_cons]
  | cons other before beforeIH =>
      rw [List.mem_cons, not_or] at fresh
      have different : (other == id) = false := by simpa using Ne.symm fresh.1
      simp [List.idxOf?_cons, different, beforeIH fresh.2]

theorem modify_append_cons (change : Bool → Bool) (before after : List Bool) (flag : Bool) :
    (before ++ flag :: after).modify before.length change = before ++ change flag :: after := by
  induction before with
  | nil => rfl
  | cons other before beforeIH => simp [beforeIH]

/-- A toggle finds the first node with the id and turns its flag, or finds none. -/
theorem preorder_toggle (id : String) (tree : NodeTree) :
    (id ∉ tree.ids ∧ toggle id tree = tree) ∨
      ∃ before node after, tree.preorder = before ++ node :: after ∧ node.id = id ∧
        id ∉ before.map Node.id ∧
        (toggle id tree).preorder = before ++ setExpanded (!node.expanded) node :: after := by
  unfold toggle
  cases result : locate? id [] tree with
  | none =>
      refine .inl ⟨fun member => ?_, rfl⟩
      obtain ⟨node, inside, same⟩ := List.mem_map.mp member
      exact id_ne_of_locate?_none tree result node inside same
  | some found =>
      obtain ⟨⟨node, children⟩, above⟩ := found
      have located := located_of_locate? tree result (by simp [nodesBefore])
      have fresh : id ∉ (nodesBefore above).map Node.id := by
        intro member
        obtain ⟨earlier, inside, same⟩ := List.mem_map.mp member
        exact located.first earlier inside same
      refine .inr ⟨nodesBefore above, node, Tree.preorderAll children ++ nodesAfter above, ?_,
        located.named, fresh, ?_⟩
      · have whole : rebuild (.node node children) above = tree := located.restored
        rw [← whole, preorder_rebuild]
        simp [Tree.preorder]
      · rw [preorder_rebuild]
        simp [onRoot, Tree.preorder]

theorem flags_toggle (id : String) (tree : NodeTree) :
    (toggle id tree).flags = Edit.onFlags tree.ids tree.flags (.toggle id) := by
  rcases preorder_toggle id tree with
    ⟨absent, unchanged⟩ | ⟨before, node, after, nodes, named, fresh, changed⟩
  · simp only [Edit.onFlags, List.idxOf?_eq_none_iff.mpr absent, unchanged]
  · have place : tree.ids.idxOf? id = some (before.map Node.expanded).length := by
      rw [ids, nodes, List.map_append, List.map_cons, named, idxOf?_append_cons _ fresh,
        List.length_map, List.length_map]
    simp only [Edit.onFlags, place]
    rw [flags, flags, nodes, changed, List.map_append, List.map_append, List.map_cons,
      List.map_cons, modify_append_cons]
    rfl

theorem unflagged_toggle (id : String) (tree : NodeTree) :
    (toggle id tree).unflagged = tree.unflagged := by
  unfold toggle
  cases result : locate? id [] tree with
  | none => rfl
  | some found =>
      obtain ⟨⟨node, children⟩, above⟩ := found
      have located := located_of_locate? tree result (by simp [nodesBefore])
      refine (unflagged_rebuild ?_ above).trans (congrArg unflagged located.restored)
      simp [unflagged, onRoot, Tree.map]

theorem flags_edit (tree : NodeTree) (change : Edit) :
    (tree.edit change).flags = change.onFlags tree.ids tree.flags := by
  cases change with
  | toggle id => exact flags_toggle id tree
  | expandAll =>
      simp [edit, expandAll, flags, Edit.onFlags, Tree.preorder_map, Function.comp_def, setExpanded]
  | collapseAll =>
      cases tree with
      | node root children =>
          simp [edit, collapseAll, flags, Edit.onFlags, Tree.map, onRoot, Tree.preorder,
            Tree.preorderAll_mapAll, Function.comp_def, setExpanded]

theorem unflagged_edit (tree : NodeTree) (change : Edit) :
    (tree.edit change).unflagged = tree.unflagged := by
  cases change with
  | toggle id => exact unflagged_toggle id tree
  | expandAll => simp [edit, expandAll, unflagged, Tree.map_map]
  | collapseAll =>
      cases tree with
      | node root children =>
          simp [edit, collapseAll, unflagged, Tree.map, onRoot, Tree.mapAll_mapAll]

theorem ids_of_unflagged {left right : NodeTree} (same : left.unflagged = right.unflagged) :
    left.ids = right.ids := by
  have nodes := congrArg (fun tree => tree.preorder.map Node.id) same
  simpa [unflagged, ids, Tree.preorder_map, Function.comp_def, setExpanded] using nodes

def edits (tree : NodeTree) (changes : List Edit) : NodeTree := changes.foldl edit tree

theorem unflagged_edits (tree : NodeTree) (changes : List Edit) :
    (tree.edits changes).unflagged = tree.unflagged := by
  induction changes generalizing tree with
  | nil => rfl
  | cons change changes changesIH =>
      exact (changesIH (tree.edit change)).trans (unflagged_edit tree change)

theorem flags_edits (tree : NodeTree) (changes : List Edit) :
    (tree.edits changes).flags = changes.foldl (Edit.onFlags tree.ids) tree.flags := by
  induction changes generalizing tree with
  | nil => rfl
  | cons change changes changesIH =>
      have ids : (tree.edit change).ids = tree.ids := ids_of_unflagged (unflagged_edit tree change)
      have later := changesIH (tree.edit change)
      rw [flags_edit, ids] at later
      exact later

/-- Edits keep the shape of a tree and all that its nodes hold beside their flags; they change the
flags as they would change a vector that knows the ids of the nodes only; and the visible nodes
are those with nothing but expanded nodes above them, to which the stack comes as well. -/
theorem edits_refine_flags (tree : NodeTree) (changes : List Edit) :
    (tree.edits changes).unflagged = tree.unflagged ∧
      (tree.edits changes).flags = changes.foldl (Edit.onFlags tree.ids) tree.flags ∧
      visible (tree.edits changes) =
        ((tree.edits changes).located.filter
          (fun entry => expandedAbove (tree.edits changes) entry.1)).map Prod.snd ∧
      visible (tree.edits changes) = (sweep [tree.edits changes]).map Tree.value :=
  ⟨unflagged_edits tree changes, flags_edits tree changes, visible_eq_filter _,
    visible_eq_sweep _⟩

end NodeTree

end RuleChart
