import RuleChart.Layout.Config
import RuleChart.Tree.Node

namespace RuleChart

/-! Where the visible nodes of a tree stand.

A tree grows along one axis and spreads its siblings along the other.  Every visible
subtree is given a span on the sibling axis that holds its own box and the spans of its
children with a gap between each two; the box stands in the middle of its span, and so does
the block of the children's spans.
-/

variable {K : Type}

/-- A part of a tree with the span of what is visible of it.  `breadth` is the size of the box of
its own node on the sibling axis. -/
structure Measured (K : Type) where
  part : NodeTree
  width : K
  breadth : K
  span : K

/-- A part of a tree with the box of its node.  The nodes below it stay as they were, visible or
not. -/
structure Placed (K : Type) where
  part : NodeTree
  x : K
  y : K
  width : K
  height : K

def Placed.node (placed : Placed K) : Node := placed.part.value

namespace LayoutConfig

/-- The space between siblings. -/
def siblingGap (config : LayoutConfig K) : K :=
  match config.orientation with
  | .vertical => config.sizes.horizontalSpacing
  | .horizontal => config.sizes.verticalSpacing

section Measure

variable [Add K] [Mul K] [LT K] [DecidableLT K] [NatCast K]

/-- The space that subtrees take side by side. -/
def blockSpan (config : LayoutConfig K) (children : List (Tree (Measured K))) : K :=
  Scalar.total (children.map (fun child => child.value.span)) +
    config.siblingGap * ((children.length - 1 : Nat) : K)

def measurePart (config : LayoutConfig K) (part : NodeTree) (children : List (Tree (Measured K))) :
    Tree (Measured K) :=
  let width := config.sizes.nodeWidth part.value.label
  let breadth := match config.orientation with
    | .vertical => width
    | .horizontal => config.sizes.nodeHeight
  let span := match children with
    | [] => breadth
    | _ :: _ => Scalar.greater breadth (config.blockSpan children)
  .node { part, width, breadth, span } children

mutual

/-- The visible part of a tree with the span of every subtree. -/
def measure (config : LayoutConfig K) : NodeTree → Tree (Measured K)
  | .node node children =>
      config.measurePart (.node node children)
        (if node.expanded then config.measureAll children else [])

def measureAll (config : LayoutConfig K) : List NodeTree → List (Tree (Measured K))
  | [] => []
  | tree :: rest => config.measure tree :: config.measureAll rest

end

end Measure

section Place

variable [Add K] [Sub K] [Mul K] [Div K] [LT K] [DecidableLT K] [NatCast K]

/-- The box of a node whose span starts at `cross` on the sibling axis, and which starts at
`main` on the other. -/
def position (config : LayoutConfig K) (main cross : K) (measured : Measured K) : Placed K :=
  let centered := cross + (measured.span - measured.breadth) / ((2 : Nat) : K)
  let (x, y) := match config.orientation with
    | .vertical => (centered, main)
    | .horizontal => (main, centered)
  { part := measured.part, x, y, width := measured.width, height := config.sizes.nodeHeight }

/-- Where the children of a node at `main` start. -/
def nextLevel (config : LayoutConfig K) (main : K) (measured : Measured K) : K :=
  match config.orientation with
  | .vertical => main + config.sizes.nodeHeight + config.sizes.verticalSpacing
  | .horizontal => main + measured.width + config.sizes.horizontalSpacing

mutual

def place (config : LayoutConfig K) (main cross : K) : Tree (Measured K) → Tree (Placed K)
  | .node measured children =>
      .node (config.position main cross measured)
        (config.placeAll (config.nextLevel main measured)
          (cross + (measured.span - config.blockSpan children) / ((2 : Nat) : K)) children)

/-- Siblings, the first of them starting at `cross`. -/
def placeAll (config : LayoutConfig K) (main cross : K) :
    List (Tree (Measured K)) → List (Tree (Placed K))
  | [] => []
  | tree :: rest =>
      config.place main cross tree ::
        config.placeAll main (cross + (tree.value.span + config.siblingGap)) rest

end

/-- The visible part of a tree with every box, the root's span starting at the origin. -/
def arrange (config : LayoutConfig K) (tree : NodeTree) : Tree (Placed K) :=
  config.place ((0 : Nat) : K) ((0 : Nat) : K) (config.measure tree)

end Place

end LayoutConfig

end RuleChart
