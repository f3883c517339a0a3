import RuleChart.Proofs.Tree.Depth
import RuleChart.Proofs.Tree.Linkage

namespace RuleChart

/-! Two searches for an id.

`find?` comes upon the nodes in preorder and stops at the first one with the id; `pathTo` goes down
the tree and comes back from every child that has nothing to offer.  Both end at one address:
`Trail` says what lies on the way to it, and `IsFirst` that no other node with the id is before it.
-/

open RuleChart.Tree (located locatedAll mem_locatedAll get?_cons)

namespace Tree

variable {α : Type}

theorem subtreesAll_append (left right : List (Tree α)) :
    subtreesAll (left ++ right) = subtreesAll left ++ subtreesAll right := by
  simp only [subtreesAll_eq_flatMap, List.flatMap_append]

end Tree

namespace NodeTree

/-- The search with a stack: the trees that are still to be searched, the next one first. -/
def search (id : String) : List NodeTree → Option NodeTree
  | [] => none
  | .node node children :: waiting =>
      if node.id = id then some (.node node children) else search id (children ++ waiting)
termination_by stack => Tree.sizeAll stack
decreasing_by
  simp only [Tree.sizeAll_append, Tree.sizeAll, Tree.size]
  omega

/-- The way from a tree down to the part at an address, and the nodes on it, those of the tree and
of the part among them. -/
inductive Trail : NodeTree → List Nat → List Node → NodeTree → Prop where
  | here (tree : NodeTree) : Trail tree [] [tree.value] tree
  | down {tree child part : NodeTree} {index : Nat} {address : List Nat} {nodes : List Node}
      (entered : tree.children[index]? = some child) (onward : Trail child address nodes part) :
      Trail tree (index :: address) (tree.value :: nodes) part

/-- There is a node with the id at the address, and none before it in preorder. -/
structure IsFirst (id : String) (tree : NodeTree) (address : List Nat) : Prop where
  named : ∃ node, tree.get? address = some node ∧ node.id = id
  before : ∀ entry ∈ tree.located, entry.1 < address → entry.2.id ≠ id

variable {id : String} {tree child part : NodeTree} {address : List Nat} {nodes : List Node}

theorem Trail.ne_nil (trail : Trail tree address nodes part) : nodes ≠ [] := by
  cases trail <;> exact List.cons_ne_nil _ _

theorem Trail.length (trail : Trail tree address nodes part) :
    nodes.length = address.length + 1 := by
  induction trail with
  | here => rfl
  | down entered onward onwardIH => simp [onwardIH]

theorem Trail.get? (trail : Trail tree address nodes part) :
    tree.get? address = some part.value := by
  induction trail with
  | here => rfl
  | down entered onward onwardIH => rw [get?_cons, entered, Option.bind_some, onwardIH]

theorem IsFirst.root (named : tree.value.id = id) : IsFirst id tree [] where
  named := ⟨tree.value, rfl, named⟩
  before := fun _ _ lower => absurd lower (List.not_lt_nil _)

/-! The search in preorder. -/

/-- The search in trees that stand side by side. -/
def findAll? (id : String) (trees : List NodeTree) : Option NodeTree :=
  (Tree.subtreesAll trees).find? (fun part => part.value.id = id)

theorem find?_node (node : Node) (children : List NodeTree) :
    find? id (.node node children) =
      if node.id = id then some (.node node children) else findAll? id children := by
  by_cases named : node.id = id <;> simp [find?, findAll?, Tree.subtrees, named]

theorem findAll?_cons (tree : NodeTree) (rest : List NodeTree) :
    findAll? id (tree :: rest) = (find? id tree).or (findAll? id rest) := List.find?_append

theorem search_eq_find? (stack : List NodeTree) : search id stack = findAll? id stack := by
  fun_induction search id stack with
  | case1 => rfl
  | case2 node children waiting named =>
      rw [findAll?_cons, find?_node, if_pos named, Option.some_or]
  | case3 node children waiting other restIH =>
      rw [restIH, findAll?_cons, find?_node, if_neg other]
      exact (congrArg _ (Tree.subtreesAll_append _ _)).trans List.find?_append

theorem find?_eq_none_iff : find? id tree = none ↔ ∀ node ∈ tree.preorder, node.id ≠ id := by
  simp [find?, Tree.preorder_eq_subtrees]

theorem IsFirst.down {index : Nat} (other : tree.value.id ≠ id)
    (entered : tree.children[index]? = some child) (first : IsFirst id child address)
    (passed : ∀ sibling ∈ tree.children.take index, find? id sibling = none) :
    IsFirst id tree (index :: address) where
  named := by
    rw [get?_cons, entered, Option.bind_some]
    exact first.named
  before := by
    intro entry member lower
    cases tree with
    | node node children =>
        rcases List.mem_cons.mp member with rfl | below
        · exact other
        · obtain ⟨place, sibling, way, found, inside, same⟩ := mem_locatedAll below
          rw [same, Nat.zero_add] at lower
          rcases List.cons_lt_cons_iff.mp lower with left | ⟨rfl, onward⟩
          · have listed : sibling ∈ (Tree.node node children).children.take index :=
              List.mem_of_getElem? ((List.getElem?_take_of_lt left).trans found)
            have inPreorder : entry.2 ∈ sibling.preorder :=
              Tree.mem_preorder_iff.mpr ⟨way, Tree.get?_of_mem_located sibling inside⟩
            exact find?_eq_none_iff.mp (passed sibling listed) entry.2 inPreorder
          · obtain rfl : sibling = child := Option.some.inj (found.symm.trans entered)
            exact first.before (way, entry.2) inside onward

/-! The search down the tree. -/

theorem pathTo_node (node : Node) (children : List NodeTree) :
    pathTo id (.node node children) =
      if node.id = id then [node]
      else if pathToAll id children = [] then [] else node :: pathToAll id children := by
  rw [pathTo]
  split
  · rfl
  · cases pathToAll id children <;> simp

theorem pathToAll_cons (tree : NodeTree) (rest : List NodeTree) :
    pathToAll id (tree :: rest) =
      if pathTo id tree = [] then pathToAll id rest else pathTo id tree := by
  rw [pathToAll]
  cases pathTo id tree <;> simp

mutual

theorem pathTo_of_absent (tree : NodeTree) (absent : find? id tree = none) :
    pathTo id tree = [] := by
  cases tree with
  | node node children =>
      rw [find?_node] at absent
      split at absent
      · cases absent
      · rename_i other
        rw [pathTo_node, if_neg other, if_pos (pathToAll_of_absent children absent)]

theorem pathToAll_of_absent (trees : List NodeTree) (absent : findAll? id trees = none) :
    pathToAll id trees = [] := by
  cases trees with
  | nil => rfl
  | cons tree rest =>
      rw [findAll?_cons, Option.or_eq_none_iff] at absent
      rw [pathToAll_cons, if_pos (pathTo_of_absent tree absent.1)]
      exact pathToAll_of_absent rest absent.2

end

mutual

theorem pathTo_of_found (tree : NodeTree) (found : find? id tree = some part) :
    ∃ address, Trail tree address (pathTo id tree) part ∧ IsFirst id tree address := by
  cases tree with
  | node node children =>
      rw [find?_node] at found
      split at found
      · rename_i named
        cases found
        rw [pathTo_node, if_pos named]
        exact ⟨[], .here _, .root named⟩
      · rename_i other
        obtain ⟨index, child, address, entered, trail, first, passed⟩ :=
          pathToAll_of_found children found
        rw [pathTo_node, if_neg other, if_neg trail.ne_nil]
        exact ⟨index :: address, .down entered trail, first.down other entered passed⟩

theorem pathToAll_of_found (trees : List NodeTree) (found : findAll? id trees = some part) :
    ∃ (index : Nat) (child : NodeTree) (address : List Nat), trees[index]? = some child ∧
      Trail child address (pathToAll id trees) part ∧ IsFirst id child address ∧
      ∀ sibling ∈ trees.take index, find? id sibling = none := by
  cases trees with
  | nil => cases found
  | cons tree rest =>
      rw [findAll?_cons, Option.or_eq_some_iff] at found
      rcases found with within | ⟨absent, later⟩
      · obtain ⟨address, trail, first⟩ := pathTo_of_found tree within
        rw [pathToAll_cons, if_neg trail.ne_nil]
        exact ⟨0, tree, address, rfl, trail, first, by simp⟩
      · obtain ⟨index, child, address, entered, trail, first, passed⟩ :=
          pathToAll_of_found rest later
        rw [pathToAll_cons, if_pos (pathTo_of_absent tree absent)]
        refine ⟨index + 1, child, address, entered, trail, first, ?_⟩
        rw [List.take_succ_cons, List.forall_mem_cons]
        exact ⟨absent, passed⟩

end

theorem pathTo_eq_nil_iff (id : String) (tree : NodeTree) :
    pathTo id tree = [] ↔ find? id tree = none := by
  refine ⟨fun empty => ?_, pathTo_of_absent tree⟩
  cases found : find? id tree with
  | none => rfl
  | some part =>
      obtain ⟨address, trail, -⟩ := pathTo_of_found tree found
      exact absurd empty trail.ne_nil

theorem find?_of_nodup (distinct : tree.ids.Nodup) (member : part ∈ tree.subtrees) :
    find? part.value.id tree = some part := by
  rw [ids, Tree.preorder_eq_subtrees, List.map_map] at distinct
  cases found : find? part.value.id tree with
  | none =>
      have other := List.find?_eq_none.mp found part member
      simp at other
  | some other =>
      have same : other.value.id = part.value.id := by simpa using List.find?_some found
      have inside : other ∈ tree.subtrees := List.mem_of_find?_eq_some found
      rw [List.inj_on_of_nodup_map distinct inside member same]

theorem Trail.linked (trail : Trail tree address nodes part)
    (links : ∀ above ∈ tree.subtrees, ∀ child ∈ above.children, Linked above.value child.value) :
    nodes.IsChain (fun parent child => child.parentId = some parent.id) := by
  induction trail with
  | here => exact .singleton _
  | @down tree child part index address nodes entered onward onwardIH =>
      have member : child ∈ tree.children := List.mem_of_getElem? entered
      have below := onwardIH fun above inside =>
        links above (Tree.mem_subtrees_trans tree (Tree.mem_subtrees_of_child member) inside)
      have link := (links tree (Tree.self_mem_subtrees tree) child member).parentId
      cases onward with
      | here => exact .cons_cons link below
      | down => exact .cons_cons link below

/-- The two searches for an id, and the one with a stack, come to the same end.  Either there is no
node with the id, or they have found the first one in preorder and the way to it.  In a tree with
default ids every node is found by its id; the way to it is as long as its depth tells, and each
node on it names the one before. -/
theorem lookups_agree (id : String) (tree : NodeTree) (place : Place) (rule : Rule)
    (cache : LabelCache) :
    find? id tree = search id [tree] ∧
      (pathTo id tree = [] ↔ find? id tree = none) ∧
      (find? id tree = none ↔ id ∉ tree.ids) ∧
      (∀ part, find? id tree = some part →
        ∃ address, Trail tree address (pathTo id tree) part ∧ IsFirst id tree address) ∧
      let built := (build { place with ids := Place.defaultId } rule cache).1
      ∀ part ∈ built.subtrees,
        find? part.value.id built = some part ∧
          (pathTo part.value.id built).length = part.value.depth - built.value.depth + 1 ∧
          (pathTo part.value.id built).IsChain
            (fun parent child => child.parentId = some parent.id) := by
  refine ⟨?stack, pathTo_eq_nil_iff id tree, ?absent, fun part => pathTo_of_found tree, ?built⟩
  case stack =>
    rw [search_eq_find?, findAll?_cons]
    exact Option.or_none.symm
  case absent =>
    rw [find?_eq_none_iff]
    simp [ids]
  case built =>
    intro built part member
    have found := find?_of_nodup (ids_build_nodup place rule cache) member
    obtain ⟨address, trail, -⟩ := pathTo_of_found built found
    have depth : part.value.depth = place.depth + address.length :=
      (depth_of_build_get? trail.get? :)
    have root : built.value.depth = place.depth + (0 : Nat) :=
      (depth_of_build_get? (Trail.here built).get? :)
    refine ⟨found, ?_, trail.linked fun above inside => linked_build _ rule cache inside⟩
    rw [trail.length]
    omega

end NodeTree

end RuleChart
