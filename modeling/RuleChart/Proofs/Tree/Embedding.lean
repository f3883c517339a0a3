import Mathlib.Logic.Function.Basic
import RuleChart.Proofs.Tree.Linkage
import RuleChart.Proofs.Tree.Shape

namespace RuleChart

namespace Node

/-- A node of the tree at the root as it is at another place. -/
def moved (place : Place) (rename : String → String) (node : Node) : Node :=
  { node with
    id := rename node.id
    parentId := match node.parentId with
      | none => place.parentId
      | some id => some (rename id)
    depth := place.depth + node.depth
    path := place.path ++ node.path }

/-- What starts out collapsed: a list, or an operation that is not a conditional, once it stands
deep enough. -/
def Folds (node : Node) : Prop :=
  (node.kind = .arrayLiteral ∧ 3 ≤ node.depth) ∨
    (node.kind = .operator ∧ node.raw.isConditional = false ∧ 4 ≤ node.depth)

end Node

namespace Sketch

theorem Drawn.folds {level : Nat} {sketch : Sketch Caption}
    {children : List (Tree (Sketch Caption))} (drawn : Drawn level sketch children)
    {path : List String} {node : Node} (settled : sketch.Settled path node) :
    node.expanded = false ↔ node.Folds := by
  obtain ⟨kind, raw, -, -, -, expanded⟩ := settled
  rw [Node.Folds, expanded, kind, raw]
  cases drawn with
  | primitive | reference | referenceOr | defaultLeaf =>
      simp [literal, variableNode, Sketch.defaultLeaf]
  | array => simp [Sketch.array, arrayFoldDepth]
  | branchLeaf side => cases side <;> simp [Sketch.branchLeaf]
  | decision step condition value rest keys conditional =>
      simp [Sketch.decision, Rule.isConditional, Rule.family?, Rule.operator?, conditional]
  | malformed step keys conditional | malformedOne step operand keys conditional =>
      simp [Sketch.malformed, Rule.isConditional, Rule.family?, Rule.operator?, conditional]
  | operation step operands keys plain steady | operationOne step operand keys plain steady =>
      simp [Sketch.operation, operatorFoldDepth, Rule.isConditional, Rule.family?, Rule.operator?,
        steady]
  | cutLeaf =>
      have steady : Rule.truncated.isConditional = false := by decide
      simp [cutNode, Sketch.operation, steady, operatorFoldDepth]

end Sketch

namespace NodeTree

section Settle

variable {rename : String → String} {place : Place}

mutual

theorem settle_moved (renames : ∀ index, rename (Place.defaultId index) = place.ids index)
    (index : Nat) (parentId : Option String) (depth : Int) (path : List String)
    (tree : Tree (Sketch String)) :
    unflagged (settle place.ids index (parentId.elim place.parentId (some ∘ rename))
        (place.depth + depth) (place.path ++ path) tree) =
      unflagged ((settle Place.defaultId index parentId depth path tree).map
        (Node.moved place rename)) := by
  cases tree with
  | node sketch children =>
      have below := settleAll_moved renames (index + 1) (Place.defaultId index) (depth + 1)
        (path ++ sketch.step) children
      rw [renames, ← Int.add_assoc, ← List.append_assoc] at below
      simp only [unflagged, settle, Tree.map, below]
      congr 1
      cases parentId <;> simp [Node.ofSketch, Node.moved, setExpanded, renames]

theorem settleAll_moved (renames : ∀ index, rename (Place.defaultId index) = place.ids index)
    (index : Nat) (parent : String) (depth : Int) (path : List String)
    (trees : List (Tree (Sketch String))) :
    Tree.mapAll (setExpanded false) (settleAll place.ids index (some (rename parent))
        (place.depth + depth) (place.path ++ path) trees) =
      Tree.mapAll (setExpanded false) (Tree.mapAll (Node.moved place rename)
        (settleAll Place.defaultId index (some parent) depth path trees)) := by
  cases trees with
  | nil => rfl
  | cons tree rest =>
      have first := settle_moved renames index (some parent) depth path tree
      have later := settleAll_moved renames (index + tree.size) parent depth path rest
      simp only [settleAll, Tree.mapAll, later]
      exact congrArg (· :: _) first

end

theorem build_moved (rule : Rule) (cache : LabelCache)
    (renames : ∀ index, rename (Place.defaultId index) = place.ids index) :
    unflagged ((build place rule) cache).1 =
      unflagged (((build Place.root rule) cache).1.map (Node.moved place rename)) := by
  -- The sketch and its labels are the same for both, since levels count from the root and both
  -- builds start with the same cache.
  have same := settle_moved renames 0 none 0 [] (captionedPlan rule cache).1
  rw [Int.add_zero, List.append_nil] at same
  rw [build_eq, build_eq]
  exact same

end Settle

theorem build_folds (place : Place) (rule : Rule) (cache : LabelCache) {node : Node}
    (member : node ∈ ((build place rule) cache).1.preorder) :
    node.expanded = false ↔ node.Folds := by
  rw [Tree.preorder_eq_subtrees] at member
  obtain ⟨part, inside, rfl⟩ := List.mem_map.mp member
  obtain ⟨level, sketch, children, path, drawn, settled, -⟩ := build_drawn place rule cache inside
  exact drawn.folds settled

/-- A tree is built at any place as it is at the root, but for the ids, depths and paths of the
place, and for the flags, which go by the depths. -/
theorem build_embedded (place : Place) (rule : Rule) (cache : LabelCache) :
    let base := ((build Place.root rule) cache).1
    let tree := ((build place rule) cache).1
    base.ids = (List.range base.size).map Place.defaultId ∧
      tree.ids = (List.range base.size).map place.ids ∧
      (∃ rename : String → String,
        (∀ index, rename (Place.defaultId index) = place.ids index) ∧
        tree.unflagged = unflagged (base.map (Node.moved place rename))) ∧
      ∀ node ∈ tree.preorder, node.expanded = false ↔ node.Folds := by
  intro base tree
  -- Default ids do not repeat, so they can be renamed to any ids, also to some that do.
  have renames (index : Nat) :
      Function.extend Place.defaultId place.ids id (Place.defaultId index) = place.ids index :=
    Place.defaultId_injective.extend_apply ..
  have moved := build_moved rule cache renames
  have size : tree.size = base.size := by
    simpa [unflagged] using congrArg Tree.size moved
  refine ⟨ids_build Place.root rule cache, ?_, ⟨_, renames, moved⟩, ?_⟩
  · rw [← size]
    exact ids_build place rule cache
  · intro node member
    exact build_folds place rule cache member

end NodeTree

end RuleChart
