import RuleChart.Proofs.Rule.Decision
import RuleChart.Proofs.Tree.Drawn
import RuleChart.Tree.Annotate
import RuleChart.Tree.Build

namespace RuleChart

/-! A build taken apart.

A build draws ids, asks for labels and tells of what is lost in one pass.  The three do not depend
on one another, so they can be done apart: the labels from the leaves up, the ids counted in
preorder, and the remarks read off the sketch.  `grow_eq` says that the pass does the same, and
`build_eq` that the sketch may count its levels from the root.
-/

namespace Tree

variable {α β γ σ : Type} {f : α → StateM σ β} {seen : β → γ} {known : α → γ}
  {allowed : α → Prop} {kept : σ → Prop}

mutual

/-- What a pass with a state lets be seen of every allowed value, as long as the state is kept in
shape, it lets be seen of a tree of such values. -/
theorem map_traverse_of_kept
    (step : ∀ value state, allowed value → kept state →
      seen (f value state).1 = known value ∧ kept (f value state).2)
    (tree : Tree α) (every : ∀ value ∈ tree.preorder, allowed value) {state : σ}
    (holds : kept state) :
    ((tree.traverse f) state).1.map seen = tree.map known ∧ kept ((tree.traverse f) state).2 := by
  cases tree with
  | node value children =>
      obtain ⟨below, keptBelow⟩ := mapAll_traverseAll_of_kept step children
        (fun other member => every other (List.mem_cons_of_mem _ member)) holds
      obtain ⟨own, keptOwn⟩ := step value _ (every value List.mem_cons_self) keptBelow
      change Tree.node (seen (f value ((traverseAll f children) state).2).1)
        (mapAll seen ((traverseAll f children) state).1) = _ ∧ _
      rw [own, below]
      exact ⟨rfl, keptOwn⟩

theorem mapAll_traverseAll_of_kept
    (step : ∀ value state, allowed value → kept state →
      seen (f value state).1 = known value ∧ kept (f value state).2)
    (trees : List (Tree α)) (every : ∀ value ∈ preorderAll trees, allowed value) {state : σ}
    (holds : kept state) :
    mapAll seen ((traverseAll f trees) state).1 = mapAll known trees ∧
      kept ((traverseAll f trees) state).2 := by
  cases trees with
  | nil => exact ⟨rfl, holds⟩
  | cons tree rest =>
      obtain ⟨first, keptFirst⟩ := map_traverse_of_kept step tree
        (fun other member => every other (List.mem_append_left _ member)) holds
      obtain ⟨later, keptLater⟩ := mapAll_traverseAll_of_kept step rest
        (fun other member => every other (List.mem_append_right _ member)) keptFirst
      change ((tree.traverse f) state).1.map seen ::
        mapAll seen ((traverseAll f rest) ((tree.traverse f) state).2).1 = _ ∧ _
      rw [first, later]
      exact ⟨rfl, keptLater⟩

end

/-- What such a pass keeps of every value, it keeps of the tree. -/
theorem map_traverse (keeps : ∀ value state, seen (f value state).1 = known value)
    (tree : Tree α) (state : σ) : ((tree.traverse f) state).1.map seen = tree.map known :=
  (map_traverse_of_kept (fun value state (_ : True) (_ : True) => ⟨keeps value state, trivial⟩)
    tree (fun _ _ => trivial) trivial).1

theorem size_traverse (tree : Tree α) (state : σ) :
    ((tree.traverse f) state).1.size = tree.size := by
  have shape : ((tree.traverse f) state).1.map (fun _ => ()) = tree.map (fun _ => ()) :=
    map_traverse (f := f) (fun _ _ => rfl) tree state
  simpa using congrArg Tree.size shape

end Tree

namespace Sketch

def captioned (sketch : Sketch Caption) : StateM LabelCache (Sketch String) := do
  let caption ← sketch.caption.text
  pure { sketch with caption }

/-- The remark on what is lost in a node right below the one at `path`. -/
def lossRemarks {κ : Type} (path : List String) (sketch : Sketch κ) : List Remark :=
  sketch.loss.toList.map (Loss.remark path (path ++ sketch.step))

mutual

/-- The remarks on what is lost in a tree below `path`, in preorder. -/
def lost (path : List String) : Tree (Sketch Caption) → List Remark
  | .node sketch children => sketch.lossRemarks path ++ lostAll (path ++ sketch.step) children

def lostAll (path : List String) : List (Tree (Sketch Caption)) → List Remark
  | [] => []
  | tree :: rest => lost path tree ++ lostAll path rest

end

/-! Depths may be counted from anywhere. -/

/-- The sketch of the rule is the same wherever the root is. -/
def Shifts (root : Int) (limit : Nat) (rule : Rule) : Prop :=
  ∀ (level : Nat) (step : List String),
    plan (root + limit) (root + level) step rule = plan limit level step rule

variable {root : Int} {limit : Nat}

theorem next_level (root : Int) (level : Nat) :
    root + level + 1 = root + ((level + 1 : Nat) : Int) := by
  omega

theorem planItems_shift {items : List Rule} (each : ∀ item ∈ items, Shifts root limit item)
    (level index : Nat) :
    planItems (root + limit) (root + level) index items = planItems limit level index items := by
  induction items generalizing index with
  | nil => rfl
  | cons item rest restIH =>
      rw [planItems, planItems, each item List.mem_cons_self,
        restIH fun other member => each other (List.mem_cons_of_mem _ member)]

theorem planOperands_shift {operands : List Rule}
    (each : ∀ operand ∈ operands, Shifts root limit operand) (level : Nat) (operator : String)
    (index : Nat) :
    planOperands (root + limit) (root + level) operator index operands =
      planOperands limit level operator index operands := by
  induction operands generalizing index with
  | nil => rfl
  | cons operand rest restIH =>
      rw [planOperands, planOperands, each operand List.mem_cons_self,
        restIH fun other member => each other (List.mem_cons_of_mem _ member)]

theorem planElse_shift (operator : String) {operands : List Rule}
    (each : ∀ operand ∈ operands, Shifts root limit operand) (level : Nat) :
    planElse (root + limit) (root + level) operator operands =
      planElse limit level operator operands := by
  match operands with
  | [] => rfl
  | [value] => rw [planElse, planElse, each value List.mem_cons_self]
  | condition :: value :: rest =>
      have room : root + (level : Int) < root + limit ↔ level < limit := by omega
      have behind : ∀ operand ∈ rest, Shifts root limit operand :=
        fun operand member => each operand (by simp [member])
      rw [planElse, planElse, next_level, each value (by simp),
        planElse_shift operator behind (level + 1)]
      simp only [room]

/-- A sketch depends on how far below the root its parts are and on nothing else. -/
theorem plan_shift (root : Int) (limit : Nat) (rule : Rule) : Shifts root limit rule := by
  induction rule using Rule.children_induction with
  | step rule childIH =>
      intro level step
      cases rule with
      | null | bool _ | number _ | string _ | emptyObject => rfl
      | list items =>
          have each : ∀ item ∈ items, Shifts root limit item := childIH
          rw [plan, plan, next_level, planItems_shift each]
      | applyOne operator operand keys =>
          have below (way : List String) := childIH operand List.mem_cons_self (level + 1) way
          simp only [plan, next_level, below]
      | apply operator operands keys =>
          have each : ∀ operand ∈ operands, Shifts root limit operand := childIH
          unfold plan
          rw [next_level]
          split
          · rfl
          · rfl
          · rename_i value rest _
            have behind : ∀ operand ∈ rest, Shifts root limit operand :=
              fun operand member => each operand (by simp [member])
            rw [each value (by simp), planElse_shift operator behind]
          · rw [planOperands_shift each]
          · rw [planOperands_shift each]

end Sketch

namespace Supply

variable {σ : Type}

/-- A supply of ids after some of them have been drawn. -/
def after (draw : StateM σ String) (start : σ) : Nat → σ
  | 0 => start
  | drawn + 1 => (draw (after draw start drawn)).2

def item (draw : StateM σ String) (start : σ) (index : Nat) : String :=
  (draw (after draw start index)).1

end Supply

namespace Place

theorem after_draw (place : Place) (drawn : Nat) : Supply.after place.draw 0 drawn = drawn := by
  induction drawn with
  | zero => rfl
  | succ drawn drawnIH => rw [Supply.after, drawnIH, draw]

theorem item_draw (place : Place) : Supply.item place.draw 0 = place.ids := by
  funext index
  rw [Supply.item, after_draw, draw]

end Place

namespace NodeTree

open Supply (after item)

mutual

/-- Gives the nodes their ids, the `index`th one to the root, and their places below
`path`. -/
def settle (ids : Nat → String) (index : Nat) (parentId : Option String) (depth : Int)
    (path : List String) : Tree (Sketch String) → NodeTree
  | .node sketch children =>
      .node (Node.ofSketch sketch (ids index) parentId depth (path ++ sketch.step))
        (settleAll ids (index + 1) (some (ids index)) (depth + 1) (path ++ sketch.step) children)

def settleAll (ids : Nat → String) (index : Nat) (parentId : Option String) (depth : Int)
    (path : List String) : List (Tree (Sketch String)) → List NodeTree
  | [] => []
  | tree :: rest =>
      settle ids index parentId depth path tree ::
        settleAll ids (index + tree.size) parentId depth path rest

end

section Grow

variable {σ : Type}

theorem run_bind {α β : Type} (first : StateM σ α) (next : α → StateM σ β) (state : σ) :
    (first >>= next) state = next (first state).1 (first state).2 := rfl

mutual

/-- The pass gives the nodes the ids that are next in preorder, the labels that a pass from the
leaves up gives them, and tells of what is lost in them. -/
theorem grow_eq (next : StateM σ String) (start : σ) (index : Nat) (parentId : Option String)
    (depth : Int) (path : List String) (tree : Tree (Sketch Caption)) (labels : LabelCache)
    (told : List Remark) :
    grow next parentId depth path tree { ids := after next start index, labels, told } =
      let captioned := tree.traverse Sketch.captioned labels
      (settle (item next start) index parentId depth path captioned.1,
        { ids := after next start (index + tree.size)
          labels := captioned.2
          told := told ++ Sketch.lost path tree }) := by
  cases tree with
  | node sketch children =>
      have below := growAll_eq next start (index + 1) (some (item next start index)) (depth + 1)
        (path ++ sketch.step) children labels (told ++ sketch.lossRemarks path)
      have drawn : Workbench.draw next
            { ids := after next start index, labels, told := told ++ sketch.lossRemarks path } =
          (item next start index,
            { ids := after next start (index + 1), labels
              told := told ++ sketch.lossRemarks path }) := rfl
      rw [grow, run_bind, Workbench.tell, run_bind, ← Sketch.lossRemarks, drawn, run_bind, below,
        Nat.add_assoc, Nat.add_comm 1, List.append_assoc]
      rfl

theorem growAll_eq (next : StateM σ String) (start : σ) (index : Nat) (parentId : Option String)
    (depth : Int) (path : List String) (trees : List (Tree (Sketch Caption)))
    (labels : LabelCache) (told : List Remark) :
    growAll next parentId depth path trees { ids := after next start index, labels, told } =
      let captioned := Tree.traverseAll Sketch.captioned trees labels
      (settleAll (item next start) index parentId depth path captioned.1,
        { ids := after next start (index + Tree.sizeAll trees)
          labels := captioned.2
          told := told ++ Sketch.lostAll path trees }) := by
  cases trees with
  | nil =>
      rw [Sketch.lostAll, List.append_nil, Tree.sizeAll, Nat.add_zero]
      rfl
  | cons tree rest =>
      have first := grow_eq next start index parentId depth path tree labels told
      have later := growAll_eq next start (index + tree.size) parentId depth path rest
        (tree.traverse Sketch.captioned labels).2 (told ++ Sketch.lost path tree)
      have size : (tree.traverse Sketch.captioned labels).1.size = tree.size :=
        Tree.size_traverse tree labels
      rw [growAll, run_bind, first, run_bind, later, Tree.sizeAll, Sketch.lostAll, ← Nat.add_assoc,
        ← List.append_assoc]
      change _ = (settleAll _ _ _ _ _ ((tree.traverse Sketch.captioned labels).1 :: _), _)
      rw [settleAll, size]
      rfl

end

/-- What is built of a rule, its labels written first. -/
def captionedPlan (rule : Rule) : StateM LabelCache (Tree (Sketch String)) :=
  (Sketch.ofRule rule).traverse Sketch.captioned

theorem construct_eq (next : StateM σ String) (start : σ) (parentId : Option String) (depth : Int)
    (path : List String) (rule : Rule) (labels : LabelCache) (told : List Remark) :
    construct next parentId depth path rule { ids := start, labels, told } =
      let captioned := captionedPlan rule labels
      (settle (item next start) 0 parentId depth path captioned.1,
        { ids := after next start captioned.1.size
          labels := captioned.2
          told := told ++ rule.depthRemarks ++
            Sketch.lost path (Sketch.ofRule rule) }) := by
  have same := Sketch.plan_shift depth Rule.maxDepth (rule.limitDepth Rule.maxDepth) 0 []
  have grown := grow_eq next start 0 parentId depth path
    (Sketch.ofRule rule) labels
    (told ++ rule.depthRemarks)
  have size : (captionedPlan rule labels).1.size =
      (Sketch.ofRule rule).size :=
    Tree.size_traverse _ labels
  have here : depth + ((0 : Nat) : Int) = depth := by omega
  rw [here] at same
  rw [Nat.zero_add, ← size] at grown
  rw [construct, same]
  exact grown

theorem buildFrom_eq_settle (draw : StateM σ String) (start : σ) (parentId : Option String)
    (depth : Int) (path : List String) (rule : Rule) (labels : LabelCache) :
    buildFrom draw parentId depth path rule start labels =
      let captioned := captionedPlan rule labels
      ((settle (item draw start) 0 parentId depth path captioned.1,
        after draw start captioned.1.size), captioned.2) := by
  rw [buildFrom, construct_eq]

end Grow

/-- The tree that is built is the sketch of the rule, with levels counted from the root, after its
labels are written and its nodes put where they belong. -/
theorem build_eq (place : Place) (rule : Rule) (labels : LabelCache) :
    build place rule labels =
      let captioned := captionedPlan rule labels
      (settle place.ids 0 place.parentId place.depth place.path captioned.1, captioned.2) := by
  rw [build, buildFrom_eq_settle, Place.item_draw]

theorem withRemarks_eq (rule : Rule) :
    withRemarks rule =
      (ofRule rule, rule.keyRemarks ++ rule.depthRemarks ++
        Sketch.lost [] (Sketch.ofRule rule)) := by
  rw [withRemarks, construct_eq, ofRule, buildFresh, build_eq, Place.item_draw]
  rfl

end NodeTree

end RuleChart
