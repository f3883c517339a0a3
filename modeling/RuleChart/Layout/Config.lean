import RuleChart.Decimal.Notation
import RuleChart.Layout.Scalar
import RuleChart.Text.Quoted

namespace RuleChart

/-- Down or to the right. -/
inductive Orientation where
  | vertical
  | horizontal
deriving DecidableEq, Repr

def Orientation.name : Orientation → String
  | .vertical => "vertical"
  | .horizontal => "horizontal"

def Orientation.ofName? (name : String) : Option Orientation :=
  [Orientation.vertical, .horizontal].find? (·.name = name)

/-- The sizes of a layout.  The spacings are also the margins at the right and at the
bottom of the canvas. -/
structure Sizes (K : Type) where
  nodeHeight : K
  horizontalSpacing : K
  verticalSpacing : K
  charWidth : K
  nodePadding : K
  minNodeWidth : K
  maxNodeWidth : K

/-- Why sizes are refused. -/
inductive SizeFault (K : Type) where
  | nodeHeight (height : K)
  | spacing (horizontal vertical : K)
  | text (charWidth padding : K)
  | nodeWidth (least greatest : K)

structure LayoutConfig (K : Type) where
  sizes : Sizes K
  orientation : Orientation

inductive LayoutConfigError (K : Type) where
  | sizes (fault : SizeFault K)
  | orientation (name : String)

namespace Sizes

variable {K : Type}

/-- The first fault of the sizes, in the order of their fields. -/
def fault? [LT K] [LE K] [DecidableLT K] [DecidableLE K] [NatCast K] (sizes : Sizes K) :
    Option (SizeFault K) :=
  let zero := ((0 : Nat) : K)
  if sizes.nodeHeight ≤ zero then some (.nodeHeight sizes.nodeHeight)
  else if sizes.horizontalSpacing < zero ∨ sizes.verticalSpacing < zero then
    some (.spacing sizes.horizontalSpacing sizes.verticalSpacing)
  else if sizes.charWidth < zero ∨ sizes.nodePadding < zero then
    some (.text sizes.charWidth sizes.nodePadding)
  else if zero < sizes.minNodeWidth ∧ sizes.minNodeWidth ≤ sizes.maxNodeWidth then none
  else some (.nodeWidth sizes.minNodeWidth sizes.maxNodeWidth)

/-- The width of a node: in proportion to its label, within the two bounds. -/
def nodeWidth [Add K] [Mul K] [LT K] [DecidableLT K] [NatCast K] (sizes : Sizes K)
    (label : String) : K :=
  let textWidth := (label.length : K) * sizes.charWidth + sizes.nodePadding
  Scalar.lesser (Scalar.greater textWidth sizes.minNodeWidth) sizes.maxNodeWidth

def standard : Sizes Float :=
  { nodeHeight := 44
    horizontalSpacing := 24
    verticalSpacing := 50
    charWidth := 8
    nodePadding := 60
    minNodeWidth := 120
    maxNodeWidth := 400 }

end Sizes

namespace LayoutConfig

variable {K : Type}

/-- Sizes are checked before the name of the orientation. -/
def make [LT K] [LE K] [DecidableLT K] [DecidableLE K] [NatCast K] (sizes : Sizes K)
    (orientation : String) : Except (LayoutConfigError K) (LayoutConfig K) :=
  match sizes.fault? with
  | some fault => .error (.sizes fault)
  | none =>
      match Orientation.ofName? orientation with
      | some orientation => .ok { sizes, orientation }
      | none => .error (.orientation orientation)

def standard (orientation : Orientation) : LayoutConfig Float :=
  { sizes := Sizes.standard, orientation }

end LayoutConfig

namespace SizeFault

private def shown (value : Float) : String := (Double.ofFloat value).text

def message : SizeFault Float → String
  | .nodeHeight height => "node_height must be > 0, got " ++ shown height
  | .spacing horizontal vertical =>
      "spacing must be >= 0, got horizontal=" ++ shown horizontal ++ ", vertical=" ++
        shown vertical
  | .text charWidth padding =>
      "char_width and node_padding must be >= 0, got " ++ shown charWidth ++ ", " ++
        shown padding
  | .nodeWidth least greatest =>
      "need 0 < min_node_width <= max_node_width, got " ++ shown least ++ ", " ++
        shown greatest

end SizeFault

def LayoutConfigError.message : LayoutConfigError Float → String
  | .sizes fault => fault.message
  | .orientation name => Text.quoted name ++ " is not a valid Orientation"

end RuleChart
