import RuleChart.Label.Cache
import RuleChart.Rule.Remarks
import RuleChart.Tree.Sketch

namespace RuleChart

def Caption.text : Caption → StateM LabelCache String
  | .fixed text => pure text
  | .labelled rule => LabelCache.format rule false
  | .reference path => do
      let label ← LabelCache.format path true
      pure (Sketch.referenceText label)

/-- Where a tree is put: below which node, at which depth and path, and with which ids, the
first of them for the root and the others in preorder. -/
structure Place where
  parentId : Option String
  depth : Int
  path : List String
  ids : Nat → String

namespace Place

def defaultId (index : Nat) : String := "node-" ++ toString (index + 1)

def root : Place := { parentId := none, depth := 0, path := [], ids := defaultId }

/-- Draws the ids of the place one after the other. -/
def draw (place : Place) : StateM Nat String := fun drawn => (place.ids drawn, drawn + 1)

end Place

namespace Node

def ofSketch (sketch : Sketch String) (id : String) (parentId : Option String) (depth : Int)
    (path : List String) : Node :=
  { id
    kind := sketch.kind
    label := sketch.caption
    raw := sketch.raw
    operator := sketch.operator
    expanded := match sketch.foldDepth with
      | none => true
      | some limit => decide (depth < limit)
    parentId
    depth
    path
    leafKind := sketch.leafKind
    result := none }

end Node

/-- What a build has at hand: the ids that are left, the labels that are known, and all that has
been told of so far. -/
structure Workbench (σ : Type) where
  ids : σ
  labels : LabelCache
  told : List Remark

namespace Workbench

variable {σ : Type}

def draw (next : StateM σ String) : StateM (Workbench σ) String := fun bench =>
  let (id, ids) := next bench.ids
  (id, { bench with ids })

def write (caption : Caption) : StateM (Workbench σ) String := fun bench =>
  let (text, labels) := caption.text bench.labels
  (text, { bench with labels })

def tell (remarks : List Remark) : StateM (Workbench σ) Unit := fun bench =>
  ((), { bench with told := bench.told ++ remarks })

end Workbench

namespace NodeTree

section Grow

variable {σ : Type}

mutual

/-- Makes the nodes of a sketch below `path`.  A node tells what is lost in it and draws its id
before those below it are made, and its label is written after them. -/
def grow (next : StateM σ String) (parentId : Option String) (depth : Int) (path : List String) :
    Tree (Sketch Caption) → StateM (Workbench σ) NodeTree
  | .node sketch children => do
      let own := path ++ sketch.step
      Workbench.tell (sketch.loss.toList.map (Loss.remark path own))
      let id ← Workbench.draw next
      let below ← growAll next (some id) (depth + 1) own children
      let caption ← Workbench.write sketch.caption
      pure (.node (Node.ofSketch { sketch with caption } id parentId depth own) below)

def growAll (next : StateM σ String) (parentId : Option String) (depth : Int)
    (path : List String) : List (Tree (Sketch Caption)) → StateM (Workbench σ) (List NodeTree)
  | [] => pure []
  | tree :: rest => do
      let first ← grow next parentId depth path tree
      let later ← growAll next parentId depth path rest
      pure (first :: later)

end

/-- Makes the tree of a rule, cut at the nesting limit.  The limit counts from the depth of the
root. -/
def construct (next : StateM σ String) (parentId : Option String) (depth : Int)
    (path : List String) (rule : Rule) : StateM (Workbench σ) NodeTree := do
  Workbench.tell rule.depthRemarks
  grow next parentId depth path
    (Sketch.plan (depth + Rule.maxDepth) depth [] (rule.limitDepth Rule.maxDepth))

/-- The tree of a rule, with ids and labels from what is at hand. -/
def buildFrom (draw : StateM σ String) (parentId : Option String) (depth : Int)
    (path : List String) (rule : Rule) : StateT σ (StateM LabelCache) NodeTree :=
  fun ids labels =>
    let (tree, bench) := construct draw parentId depth path rule { ids, labels, told := [] }
    ((tree, bench.ids), bench.labels)

end Grow

def build (place : Place) (rule : Rule) : StateM LabelCache NodeTree := fun labels =>
  let ((tree, _), labels) :=
    buildFrom place.draw place.parentId place.depth place.path rule 0 labels
  (tree, labels)

/-- The tree built with a cache of its own. -/
def buildFresh (place : Place) (rule : Rule) : NodeTree :=
  (build place rule (LabelCache.new LabelCache.defaultCapacity)).1

def ofRule (rule : Rule) : NodeTree := buildFresh Place.root rule

/-- The tree of a rule and what is told of while it is made: first of the keys that were ignored
when the rule was read, then as the build goes. -/
def withRemarks (rule : Rule) : NodeTree × List Remark :=
  let (tree, bench) := construct Place.root.draw Place.root.parentId Place.root.depth
    Place.root.path rule
    { ids := 0, labels := .new LabelCache.defaultCapacity, told := rule.keyRemarks }
  (tree, bench.told)

end NodeTree

end RuleChart
