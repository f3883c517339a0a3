import Mathlib.Data.List.Nodup
import RuleChart.Proofs.Tree.Edit
import RuleChart.Proofs.Tree.Paths

namespace RuleChart

/-- What a node knows of the one right above it. -/
structure Linked (parent child : Node) : Prop where
  parentId : child.parentId = some parent.id
  depth : child.depth = parent.depth + 1
  path : ∃ step : List String, (step.length = 1 ∨ step.length = 2) ∧
    child.path = parent.path ++ step

theorem Place.defaultId_injective : Function.Injective Place.defaultId := by
  intro one other same
  have chars := congrArg String.toList same
  have dash : '-'.isDigit = false := by decide
  refine Nat.succ.inj (Text.digits_behind_separator dash "node".toList "node".toList ?_)
  simpa [defaultId] using chars

namespace NodeTree

open Supply (after item)

mutual

theorem ids_settle (ids : Nat → String) (index : Nat) (parentId : Option String) (depth : Int)
    (path : List String) (tree : Tree (Sketch String)) :
    (settle ids index parentId depth path tree).ids = (List.range' index tree.size).map ids := by
  cases tree with
  | node sketch children =>
      have below := ids_settleAll ids (index + 1) (some (ids index)) (depth + 1)
        (path ++ sketch.step) children
      simp only [NodeTree.ids, settle, Tree.preorder, List.map_cons, below, Tree.size,
        List.range'_succ]
      rfl

theorem ids_settleAll (ids : Nat → String) (index : Nat) (parentId : Option String) (depth : Int)
    (path : List String) (trees : List (Tree (Sketch String))) :
    (Tree.preorderAll (settleAll ids index parentId depth path trees)).map Node.id =
      (List.range' index (Tree.sizeAll trees)).map ids := by
  cases trees with
  | nil => rfl
  | cons tree rest =>
      have first := ids_settle ids index parentId depth path tree
      have later := ids_settleAll ids (index + tree.size) parentId depth path rest
      simp only [NodeTree.ids] at first
      simp only [settleAll, Tree.preorderAll, List.map_append, first, later, Tree.sizeAll,
        ← List.range'_append_1]

end

theorem size_settle (ids : Nat → String) (index : Nat) (parentId : Option String) (depth : Int)
    (path : List String) (tree : Tree (Sketch String)) :
    (settle ids index parentId depth path tree).size = tree.size := by
  have raw := congrArg Tree.size (settle_raw ids index parentId depth path tree)
  simpa using raw

/-- As many ids are drawn as there are nodes. -/
theorem buildFrom_eq {σ : Type} (draw : StateM σ String) (start : σ) (parentId : Option String)
    (depth : Int) (path : List String) (rule : Rule) (cache : LabelCache) :
    let built := build { parentId, depth, path, ids := item draw start } rule cache
    buildFrom draw parentId depth path rule start cache =
      ((built.1, after draw start built.1.size), built.2) := by
  intro built
  have settled : built =
      (settle (item draw start) 0 parentId depth path (captionedPlan rule cache).1,
        (captionedPlan rule cache).2) := build_eq _ rule cache
  rw [buildFrom_eq_settle, settled, size_settle]

variable {ids : Nat → String} {index : Nat} {parentId : Option String} {depth : Int}
  {path : List String}

/-- A child follows its parent, whatever the places of the two in the tree. -/
theorem linked_of_mem_children {sketch : Sketch String} {children : List (Tree (Sketch String))}
    (steps : ∀ child ∈ children, child.value.step.length = 1 ∨ child.value.step.length = 2)
    {child : NodeTree}
    (member : child ∈ (settle ids index parentId depth path (.node sketch children)).children) :
    Linked (settle ids index parentId depth path (.node sketch children)).value child.value := by
  obtain ⟨start, below, inside, rfl⟩ := mem_settleAll member
  cases below with
  | node next further => exact ⟨rfl, rfl, next.step, steps _ inside, rfl⟩

theorem settle_linked {spots : Tree (List String × Rule)} {level : Nat}
    (addressed : spots.Throughout Sketch.Addressed level) {tree : Tree (Sketch String)}
    (same : tree.map Sketch.spot = spots) {part : NodeTree}
    (member : part ∈ (settle ids index parentId depth path tree).subtrees) :
    ∀ child ∈ part.children, Linked part.value child.value := by
  induction addressed generalizing tree index parentId depth path with
  | @node level value spots here below belowIH =>
      cases tree with
      | node sketch children =>
          rw [Tree.map, Tree.mapAll_eq_map] at same
          obtain ⟨rfl, rfl⟩ := Tree.node.inj same
          rcases List.mem_cons.mp member with rfl | inside
          · refine fun child => linked_of_mem_children fun below member => ?_
            have length := here.step_length (List.mem_map_of_mem member)
            rwa [Tree.value_map] at length
          · rw [Tree.subtreesAll_eq_flatMap] at inside
            obtain ⟨settled, settledMember, within⟩ := List.mem_flatMap.mp inside
            obtain ⟨start, child, childMember, rfl⟩ := mem_settleAll settledMember
            exact belowIH _ (List.mem_map_of_mem childMember) rfl within

theorem ids_build (place : Place) (rule : Rule) (cache : LabelCache) :
    ((build place rule) cache).1.ids =
      (List.range ((build place rule) cache).1.size).map place.ids := by
  obtain ⟨sketched, built, -⟩ := build_spots place rule cache
  rw [built, ids_settle, size_settle, List.range_eq_range']

theorem linked_build (place : Place) (rule : Rule) (cache : LabelCache) {part : NodeTree}
    (member : part ∈ ((build place rule) cache).1.subtrees) :
    ∀ child ∈ part.children, Linked part.value child.value := by
  obtain ⟨sketched, settled, spots⟩ := build_spots place rule cache
  have addressed := (Sketch.ofRule_drawn rule).map
    (fun level sketch children drawn => Sketch.Drawn.addressed drawn)
  rw [settled] at member
  exact settle_linked addressed spots member

/-- The ids that are taken by default do not repeat. -/
theorem ids_build_nodup (place : Place) (rule : Rule) (cache : LabelCache) :
    ((build { place with ids := Place.defaultId } rule) cache).1.ids.Nodup := by
  rw [ids_build]
  exact List.Nodup.map Place.defaultId_injective List.nodup_range

/-- The nodes of a built tree have the first ids of the supply, in preorder and one each, and
nothing more is drawn from it.  The root is where it was put, and all others follow the nodes above
them.  So the ids that are taken by default do not repeat. -/
theorem build_linked {σ : Type} (draw : StateM σ String) (start : σ) (parentId : Option String)
    (depth : Int) (path : List String) (rule : Rule) (cache : LabelCache) :
    let place : Place := { parentId, depth, path, ids := item draw start }
    let built := build place rule cache
    let tree := built.1
    let plain := (build { place with ids := Place.defaultId } rule cache).1
    tree.ids = (List.range tree.size).map (item draw start) ∧
      buildFrom draw parentId depth path rule start cache =
        ((tree, after draw start tree.size), built.2) ∧
      (tree.value.parentId = parentId ∧ tree.value.depth = depth ∧ tree.value.path = path) ∧
      (∀ part ∈ tree.subtrees, ∀ child ∈ part.children, Linked part.value child.value) ∧
      plain.ids = (List.range plain.size).map (fun index => "node-" ++ toString (index + 1)) ∧
      plain.ids.Nodup := by
  intro place built tree plain
  obtain ⟨sketched, settled, spots⟩ := build_spots place rule cache
  have root := congrArg (fun tree => tree.value.1) spots
  simp only [Tree.value_map, Sketch.ofRule_spot] at root
  refine ⟨ids_build place rule cache, buildFrom_eq draw start parentId depth path rule cache,
    ?root, fun part member => linked_build place rule cache member,
    ids_build { place with ids := Place.defaultId } rule cache, ids_build_nodup place rule cache⟩
  change tree = _ at settled
  rw [settled]
  cases sketched with
  | node sketch children =>
      refine ⟨rfl, rfl, ?_⟩
      change path ++ sketch.step = path
      change sketch.step = [] at root
      rw [root, List.append_nil]

end NodeTree

end RuleChart
