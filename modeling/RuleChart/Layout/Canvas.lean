import RuleChart.Decimal.Hundredths
import RuleChart.Layout.Geometry

namespace RuleChart

variable {K : Type}

structure Point (K : Type) where
  x : K
  y : K

/-- A cubic curve with its two control points. -/
structure Curve (K : Type) where
  start : Point K
  startControl : Point K
  endControl : Point K
  finish : Point K

/-- Joins two nodes, named by their ids. -/
structure Edge (K : Type) where
  source : String
  target : String
  curve : Curve K

structure Layout (K : Type) where
  nodes : List (Placed K)
  edges : List (Edge K)
  width : K
  height : K

namespace LayoutConfig

section Curves

variable [Add K] [Div K] [NatCast K]

/-- From the middle of the side of one box to the middle of the facing side of the other,
turning halfway. -/
def curve (config : LayoutConfig K) (parent child : Placed K) : Curve K :=
  let two := ((2 : Nat) : K)
  let height := config.sizes.nodeHeight
  match config.orientation with
  | .vertical =>
      let fromX := parent.x + parent.width / two
      let fromY := parent.y + height
      let toX := child.x + child.width / two
      let middle := (fromY + child.y) / two
      { start := ⟨fromX, fromY⟩
        startControl := ⟨fromX, middle⟩
        endControl := ⟨toX, middle⟩
        finish := ⟨toX, child.y⟩ }
  | .horizontal =>
      let fromX := parent.x + parent.width
      let fromY := parent.y + height / two
      let toY := child.y + height / two
      let middle := (fromX + child.x) / two
      { start := ⟨fromX, fromY⟩
        startControl := ⟨middle, fromY⟩
        endControl := ⟨middle, toY⟩
        finish := ⟨child.x, toY⟩ }

def edge (config : LayoutConfig K) (parent child : Placed K) : Edge K :=
  { source := parent.node.id, target := child.node.id, curve := config.curve parent child }

mutual

/-- The edges below a node, in preorder of their lower ends. -/
def edges (config : LayoutConfig K) : Tree (Placed K) → List (Edge K)
  | .node parent children => config.edgesFrom parent children

def edgesFrom (config : LayoutConfig K) (parent : Placed K) :
    List (Tree (Placed K)) → List (Edge K)
  | [] => []
  | child :: rest =>
      config.edge parent child.value :: config.edges child ++ config.edgesFrom parent rest

end

end Curves

/-- The ends of all boxes bound the canvas, and a margin is added to it. -/
def layout [Add K] [Sub K] [Mul K] [Div K] [LT K] [DecidableLT K] [NatCast K] [Extremes K]
    (config : LayoutConfig K) (tree : NodeTree) : Layout K :=
  let placed := config.arrange tree
  let right (box : Placed K) := box.x + box.width
  let bottom (box : Placed K) := box.y + box.height
  let others := Tree.preorderAll placed.children
  { nodes := placed.preorder
    edges := config.edges placed
    width := Extremes.greatest (right placed.value) (others.map right) +
      config.sizes.horizontalSpacing
    height := Extremes.greatest (bottom placed.value) (others.map bottom) +
      config.sizes.verticalSpacing }

end LayoutConfig

namespace Edge

def id (edge : Edge K) : String := "edge-" ++ edge.source ++ "-" ++ edge.target

end Edge

namespace Point

def text (point : Point Float) : String :=
  (Double.ofFloat point.x).coordinateText ++ " " ++ (Double.ofFloat point.y).coordinateText

end Point

namespace Curve

/-- The curve as path data. -/
def path (curve : Curve Float) : String :=
  "M " ++ curve.start.text ++ " C " ++ curve.startControl.text ++ ", " ++
    curve.endControl.text ++ ", " ++ curve.finish.text

end Curve

namespace Layout

def node? (layout : Layout K) (id : String) : Option (Placed K) :=
  layout.nodes.find? (fun placed => placed.node.id = id)

/-- The zoom that shows the whole canvas in a viewport with some padding on every side; it
never enlarges. -/
def fitZoom [Sub K] [Mul K] [Div K] [LE K] [DecidableLE K] [NatCast K] [Extremes K]
    (layout : Layout K) (viewportWidth viewportHeight padding : K) : K :=
  let zero := ((0 : Nat) : K)
  let one := ((1 : Nat) : K)
  let two := ((2 : Nat) : K)
  if layout.width ≤ zero ∨ layout.height ≤ zero then one
  else
    Extremes.least ((viewportWidth - two * padding) / layout.width)
      [(viewportHeight - two * padding) / layout.height, one]

end Layout

end RuleChart
