import RuleChart.Flowchart.Chart
import RuleChart.Flowchart.Escape
import RuleChart.Flowchart.Options

namespace RuleChart.Flowchart

def Shape.opening : Shape → String
  | .terminator => "(["
  | .parallelogram => "[/"
  | .subroutine => "[["
  | .diamond => "\x7b"
  | .hexagon => "\x7b\x7b"
  | .rectangle => "["

def Shape.closing : Shape → String
  | .terminator => "])"
  | .parallelogram => "/]"
  | .subroutine => "]]"
  | .diamond => "\x7d"
  | .hexagon => "\x7d\x7d"
  | .rectangle => "]"

def Style.name : Style → String
  | .condition => "condition"
  | .result => "result"
  | .variable => "variable"
  | .operator => "operator"

def Style.colors : Style → String
  | .condition => "fill:#fef3c7,stroke:#f59e0b,color:#92400e"
  | .result => "fill:#d1fae5,stroke:#10b981,color:#065f46"
  | .variable => "fill:#dbeafe,stroke:#3b82f6,color:#1e40af"
  | .operator => "fill:#f3e8ff,stroke:#a855f7,color:#6b21a8"

def Style.all : List Style := [.condition, .result, .variable, .operator]

def Link.label? : Link → Option String
  | .plain => none
  | .yes => some "✓ Yes"
  | .no => some "✗ No"

/-- An edge between two numbered boxes. -/
structure Connection where
  source : Nat
  target : Nat
  link : Link
deriving DecidableEq, Repr

mutual

/-- The edges below a box.  A plain edge stands before the edges below its target, the edge
to an outcome behind them. -/
def connections : Tree (Nat × Box) → List Connection
  | .node (source, _) children => connectionsFrom source children

def connectionsFrom (source : Nat) : List (Tree (Nat × Box)) → List Connection
  | [] => []
  | child :: rest =>
      let link := child.value.2.link
      let edge : Connection := { source, target := child.value.1, link }
      let below := connections child
      (if link = .plain then edge :: below else below ++ [edge]) ++ connectionsFrom source rest

end

def boxId (number : Nat) : String := "n" ++ toString number

def declarationLine (limit : Int) (number : Nat) (box : Box) : String :=
  "    " ++ boxId number ++ box.shape.opening ++ "\"" ++ escapeLabel limit box.text ++ "\"" ++
    box.shape.closing

def styleLine (number : Nat) (style : Style) : String :=
  "    class " ++ boxId number ++ " " ++ style.name

def declaration (limit : Int) (entry : Nat × Box) : List String :=
  let (number, box) := entry
  declarationLine limit number box ::
    match box.style with
    | none => []
    | some style => [styleLine number style]

def connectionLine (connection : Connection) : String :=
  let arrow := match connection.link.label? with
    | none => " --> "
    | some label => " -->|\"" ++ label ++ "\"| "
  "    " ++ boxId connection.source ++ arrow ++ boxId connection.target

def themeLine (theme : Theme) : String :=
  "%%\x7binit: \x7b\"theme\": \"" ++ theme.name ++ "\"\x7d\x7d%%"

def headerLines (options : FlowchartOptions) : List String :=
  (options.theme.map themeLine).toList ++
    ["flowchart " ++ options.direction.name, "", "  %% Styling"] ++
    Style.all.map (fun style => "  classDef " ++ style.name ++ " " ++ style.colors) ++ [""]

def boxLines (limit : Int) (chart : Tree Box) : List String :=
  (chart.numbered 1).preorder.flatMap (declaration limit)

def edgeLines (chart : Tree Box) : List String :=
  (connections (chart.numbered 1)).map connectionLine

def documentLines (options : FlowchartOptions) (chart : Tree Box) : List String :=
  headerLines options ++ boxLines options.maxLabelLength chart ++ "" :: edgeLines chart

def document (options : FlowchartOptions) (rule : Rule) : String :=
  "\n".intercalate (documentLines options (ofRule options.includeValues rule))

/-- The document of a rule as a decision tree. -/
def decisionTree (options : FlowchartOptions) (rule : Rule) : String :=
  document options.downwards rule

end RuleChart.Flowchart
