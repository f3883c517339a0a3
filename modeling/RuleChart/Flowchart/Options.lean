import RuleChart.Text.Quoted

namespace RuleChart

/-- Where a flowchart grows to.  `td` and `tb` both grow downwards. -/
inductive FlowDirection where
  | td
  | tb
  | lr
  | rl
deriving DecidableEq, Repr

def FlowDirection.name : FlowDirection → String
  | .td => "TD"
  | .tb => "TB"
  | .lr => "LR"
  | .rl => "RL"

def FlowDirection.all : List FlowDirection := [.td, .tb, .lr, .rl]

def FlowDirection.ofName? (name : String) : Option FlowDirection :=
  FlowDirection.all.find? (·.name = name)

inductive Theme where
  | standard
  | dark
  | forest
  | neutral
deriving DecidableEq, Repr

def Theme.name : Theme → String
  | .standard => "default"
  | .dark => "dark"
  | .forest => "forest"
  | .neutral => "neutral"

def Theme.all : List Theme := [.standard, .dark, .forest, .neutral]

def Theme.ofName? (name : String) : Option Theme := Theme.all.find? (·.name = name)

/-- The theme of a name; unknown names mean the standard one. -/
def Theme.ofNameOrStandard (name : String) : Theme := (Theme.ofName? name).getD .standard

/-- Texts are cut to `maxLabelLength` characters, which is positive.  Without
`includeValues` the items of lists are not drawn. -/
structure FlowchartOptions where
  direction : FlowDirection
  includeValues : Bool
  theme : Option Theme
  maxLabelLength : Int
  maxLabelLength_pos : 0 < maxLabelLength

inductive FlowchartOptionsError where
  | labelLength (length : Int)
  | direction (name : String)
  | theme (name : String)
deriving DecidableEq, Repr

def FlowchartOptionsError.message : FlowchartOptionsError → String
  | .labelLength length => "max_label_length must be > 0, got " ++ toString length
  | .direction name => Text.quoted name ++ " is not a valid FlowOrientation"
  | .theme name => Text.quoted name ++ " is not a valid Theme"

namespace FlowchartOptions

def defaultLabelLength : Int := 50

def standard : FlowchartOptions :=
  { direction := .td
    includeValues := true
    theme := none
    maxLabelLength := defaultLabelLength
    maxLabelLength_pos := by decide }

/-- The length is checked first, then the direction, then the theme. -/
def make (direction : String) (includeValues : Bool) (theme : Option String)
    (maxLabelLength : Int) : Except FlowchartOptionsError FlowchartOptions :=
  if positive : 0 < maxLabelLength then
    match FlowDirection.ofName? direction with
    | none => .error (.direction direction)
    | some direction =>
        match theme with
        | none =>
            .ok { direction, includeValues, theme := none, maxLabelLength,
                  maxLabelLength_pos := positive }
        | some name =>
            match Theme.ofName? name with
            | none => .error (.theme name)
            | some theme =>
                .ok { direction, includeValues, theme := some theme, maxLabelLength,
                      maxLabelLength_pos := positive }
  else .error (.labelLength maxLabelLength)

/-- The same options for a decision tree, which grows downwards. -/
def downwards (options : FlowchartOptions) : FlowchartOptions := { options with direction := .td }

end FlowchartOptions

end RuleChart
