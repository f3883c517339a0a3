import RuleChart.Command.Arguments
import RuleChart.Flowchart.Document
import RuleChart.Flowchart.Remarks
import RuleChart.Json.Reader
import RuleChart.Layout.Canvas
import RuleChart.Text.Utf8
import RuleChart.Tree.Build
import RuleChart.Tree.Outline

namespace RuleChart.Command

/-- Why a file cannot be read. -/
structure FileFault where
  code : Nat
  reason : String

def FileFault.missing : FileFault := { code := 2, reason := "No such file or directory" }

def FileFault.directory : FileFault := { code := 21, reason := "Is a directory" }

def FileFault.notDirectory : FileFault := { code := 20, reason := "Not a directory" }

def FileFault.message (fault : FileFault) (path : String) : String :=
  "[Errno " ++ toString fault.code ++ "] " ++ fault.reason ++ ": " ++ Text.quoted path

inductive InputFault where
  | unreadable (path : String) (fault : FileFault)
  | undecodable (error : Text.Utf8Error)
  | malformed (text : String) (error : JsonError)
  | beyond (gap : JsonGap)

def InputFault.message : InputFault → String
  | .unreadable path fault => "Error reading input: " ++ fault.message path
  | .undecodable error => "Error: input is not UTF-8 text: " ++ error.message
  | .malformed text error => "Error: invalid JSON: " ++ error.message text
  | .beyond gap => "Error: cannot read input: " ++ gap.message

/-- A text beyond the reader has a code of its own, apart from those of texts that can be read and
of texts that are malformed. -/
def InputFault.exitCode : InputFault → Nat
  | .unreadable .. => 1
  | .undecodable _ => 2
  | .malformed .. => 2
  | .beyond _ => 3

structure Response where
  exitCode : Nat
  output : String
  errors : String

/-- How far the command line follows a text. -/
def limits : JsonLimits := { nesting := Json.nestingLimit, digits := some Json.digitLimit }

/-- The rule in a UTF-8 text with line ends of any kind. -/
def readRule (bytes : List UInt8) : Except InputFault Rule :=
  match Text.decodeUtf8 bytes with
  | .error error => .error (.undecodable error)
  | .ok decoded =>
      let chars := Text.normalLineEnds decoded
      match Json.readWithin limits chars with
      | .error (.beyond gap) => .error (.beyond gap)
      | .error error => .error (.malformed (String.ofList chars) error)
      | .ok value => .ok (Rule.ofJson value)

def placedJson (placed : Placed Float) : Json :=
  let number (value : Float) := Json.number (.float value)
  .object
    [("id", .string placed.node.id),
     ("kind", .string placed.node.kind.name),
     ("label", .string placed.node.label),
     ("x", number placed.x),
     ("y", number placed.y),
     ("width", number placed.width),
     ("height", number placed.height)]

def edgeJson (edge : Edge Float) : Json :=
  .object
    [("id", .string edge.id),
     ("source", .string edge.source),
     ("target", .string edge.target),
     ("path", .string edge.curve.path)]

def layoutJson (layout : Layout Float) : Json :=
  .object
    [("width", .number (.float layout.width)),
     ("height", .number (.float layout.height)),
     ("nodes", .array (layout.nodes.map placedJson)),
     ("edges", .array (layout.edges.map edgeJson))]

/-- What is drawn, and the remarks on what the drawing leaves out. -/
def draw (drawing : Drawing) (rule : Rule) : String × List Remark :=
  match drawing with
  | .flowchart options =>
      (Flowchart.document options rule, Flowchart.remarks options.includeValues rule)
  | .tree depth =>
      let (tree, remarks) := NodeTree.withRemarks rule
      (NodeTree.outline depth tree, remarks)
  | .layout orientation =>
      let (tree, remarks) := NodeTree.withRemarks rule
      ((layoutJson ((LayoutConfig.standard orientation).layout tree)).indented, remarks)

/-- Closes the remarks of a verbose run. -/
def doneLine (arguments : Arguments) : String :=
  "rulegraph.cli: Rendered " ++ arguments.drawing.name ++ " for " ++
    arguments.file.getD "<stdin>"

def joinLines (lines : List String) : String := String.join (lines.map (· ++ "\n"))

/-- The answer to a command line whose source holds `bytes`. -/
def respond (arguments : Arguments) (bytes : Except InputFault (List UInt8)) : Response :=
  match bytes.bind readRule with
  | .error fault =>
      { exitCode := fault.exitCode, output := "", errors := joinLines [fault.message] }
  | .ok rule =>
      let (drawn, remarks) := draw arguments.drawing rule
      let told := remarks.map Remark.line ++ [doneLine arguments]
      { exitCode := 0
        output := joinLines [drawn]
        errors := if arguments.verbose then joinLines told else "" }

end RuleChart.Command
