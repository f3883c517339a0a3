import RuleChart.Flowchart.Options
import RuleChart.Layout.Config
import RuleChart.Text.Integer

namespace RuleChart.Command

/-! The command line.

Options may stand before and behind the one operand, long names may be shortened as long
as they stay unambiguous, short names may be run together, and a value may be attached to
its option or follow it.  `--` ends the options.
-/

/-- What an option does to the settings read so far. -/
inductive OptionEffect (σ : Type) where
  | set (change : σ → σ)
  | read (change : String → σ → Option σ)
  | help

structure OptionSpec (σ : Type) where
  names : List String
  effect : OptionEffect σ

inductive UsageFault where
  | help
  | ambiguousOption (argument : String)
  | missingValue (option : String)
  | invalidValue (option value : String)
  | unexpectedValue (option : String)
  | missingCommand
  | unknownCommand (name : String)
  | surplusArgument (argument : String)
deriving DecidableEq, Repr

def UsageFault.message : UsageFault → String
  | .help => "flowchart, tree or layout draws a rule from a file or standard input"
  | .ambiguousOption argument => "ambiguous option: " ++ argument
  | .missingValue option => option ++ " needs a value"
  | .invalidValue option value => "invalid value for " ++ option ++ ": " ++ Text.quoted value
  | .unexpectedValue option => option ++ " takes no value"
  | .missingCommand => "a command is required: flowchart, tree or layout"
  | .unknownCommand name => "unknown command: " ++ Text.quoted name
  | .surplusArgument argument => "unexpected argument: " ++ Text.quoted argument

/-- An option's name as it is used in an argument, with what is attached to it: the text
behind an equals sign, or what follows a short name at once. -/
structure OptionUse (σ : Type) where
  name : String
  effect : OptionEffect σ
  attached : Option String

/-- How an argument in front of `--` reads. -/
inductive Reading (σ : Type) where
  | word
  | unknown
  | ambiguous
  | option (used : OptionUse σ)

section Options

variable {σ : Type}

/-- All names with the effect of their option. -/
def optionNames (specs : List (OptionSpec σ)) : List (String × OptionEffect σ) :=
  specs.flatMap (fun spec => spec.names.map (fun name => (name, spec.effect)))

def effectOf? (specs : List (OptionSpec σ)) (name : String) : Option (OptionEffect σ) :=
  ((optionNames specs).find? (fun entry => entry.1 = name)).map Prod.snd

/-- An argument cut at its first equals sign. -/
def splitValue? (argument : String) : Option (String × String) :=
  let chars := argument.toList
  match chars.dropWhile (· != '=') with
  | [] => none
  | _ :: value => some (String.ofList (chars.takeWhile (· != '=')), String.ofList value)

/-- The options that an argument may be short for. -/
def candidates (specs : List (OptionSpec σ)) (argument : String) : List (OptionUse σ) :=
  match argument.toList with
  | '-' :: '-' :: _ =>
      let (written, attached) : String × Option String := match splitValue? argument with
        | some (name, value) => (name, some value)
        | none => (argument, none)
      (optionNames specs).filterMap fun (name, effect) =>
        if written.toList.isPrefixOf name.toList then some { name, effect, attached } else none
  | mark :: letter :: more =>
      (optionNames specs).filterMap fun (name, effect) =>
        if name.toList = [mark, letter] then
          some { name, effect, attached := some (String.ofList more) }
        else if argument.toList.isPrefixOf name.toList then some { name, effect, attached := none }
        else none
  | _ => []

/-- A minus sign with digits, or with digits behind a point, is a value and no option. -/
def isNegativeNumber (argument : String) : Bool :=
  let isDigit (c : Char) := (Text.digitValue? c).isSome
  match argument.toList with
  | '-' :: chars =>
      let number := if chars.getLast? = some '\n' then chars.dropLast else chars
      let fraction := number.dropWhile isDigit
      match fraction with
      | [] => !number.isEmpty
      | '.' :: places => !places.isEmpty && places.all isDigit
      | _ => false
  | _ => false

def classify (specs : List (OptionSpec σ)) (argument : String) : Reading σ :=
  match argument.toList with
  | '-' :: _ :: _ =>
      let exact : Option (OptionUse σ) := (effectOf? specs argument).map (fun effect =>
        { name := argument, effect, attached := none })
      let split : Option (OptionUse σ) := (splitValue? argument).bind fun (name, value) =>
        (effectOf? specs name).map (fun effect => { name, effect, attached := some value })
      match exact <|> split with
      | some used => .option used
      | none =>
          match candidates specs argument with
          | [used] => .option used
          | _ :: _ :: _ => .ambiguous
          | [] =>
              if isNegativeNumber argument || argument.contains ' ' then .word else .unknown
  | _ => .word

/-- One of the options of an argument, with its value if it takes one. -/
inductive Taken (σ : Type) where
  | set (change : σ → σ)
  | read (name : String) (change : String → σ → Option σ) (value : String)
  | help

/-- The option of a name behind which nothing is attached.  `following` is the next word;
the result tells whether that word is its value. -/
def takeBare (name : String) (effect : OptionEffect σ) (following : Option String) :
    Except UsageFault (List (Taken σ) × Bool) :=
  match effect, following with
  | .set change, _ => .ok ([.set change], false)
  | .help, _ => .ok ([.help], false)
  | .read _, none => .error (.missingValue name)
  | .read change, some value => .ok ([.read name change value], true)

/-- The options of a short name and the letters attached to it.  They are the value of the
first option that takes one; before it, each names an option of its own. -/
def takeLetters (specs : List (OptionSpec σ)) (following : Option String) (name : String)
    (effect : OptionEffect σ) : List Char → Except UsageFault (List (Taken σ) × Bool)
  | [] => takeBare name effect following
  | letter :: more =>
      let further (first : Taken σ) :=
        let next := String.ofList ['-', letter]
        match effectOf? specs next with
        | none => .error (.unexpectedValue name)
        | some nextEffect =>
            (takeLetters specs following next nextEffect more).map fun (taken, used) =>
              (first :: taken, used)
      match effect with
      | .set change => further (.set change)
      | .help => further .help
      | .read change => .ok ([.read name change (String.ofList (letter :: more))], false)

def isShort (name : String) : Bool := name.toList[1]? != some '-'

/-- The options of one argument, in their order. -/
def take (specs : List (OptionSpec σ)) (used : OptionUse σ) (following : Option String) :
    Except UsageFault (List (Taken σ) × Bool) :=
  match used.attached, used.effect with
  | none, effect => takeBare used.name effect following
  | some value, .read change => .ok ([.read used.name change value], false)
  | some text, effect =>
      if isShort used.name && text != "" then
        takeLetters specs following used.name effect text.toList
      else .error (.unexpectedValue used.name)

def Taken.apply (settings : σ) : Taken σ → Except UsageFault σ
  | .set change => .ok (change settings)
  | .help => .error .help
  | .read name change value =>
      match change value settings with
      | some changed => .ok changed
      | none => .error (.invalidValue name value)

/-- Applies the options of an argument, once all of them are known. -/
def applyOption (specs : List (OptionSpec σ)) (used : OptionUse σ) (following : Option String)
    (settings : σ) : Except UsageFault (σ × Bool) :=
  match take specs used following with
  | .error fault => .error fault
  | .ok (taken, consumed) => (taken.foldlM Taken.apply settings).map (·, consumed)

/-- What is left of a command line when its options are read. -/
structure Leftover (σ : Type) where
  settings : σ
  words : List String
  surplus : List String
  endsWithWord : Bool

/-- Reads the arguments in front of `--`. -/
def readTagged (specs : List (OptionSpec σ)) (tagged : List (String × Reading σ))
    (leftover : Leftover σ) : Except UsageFault (Leftover σ) :=
  match tagged with
  | [] => .ok leftover
  | (argument, .word) :: rest =>
      readTagged specs rest
        { leftover with words := leftover.words ++ [argument], endsWithWord := true }
  | (argument, .unknown) :: rest =>
      readTagged specs rest
        { leftover with surplus := leftover.surplus ++ [argument], endsWithWord := false }
  | (argument, .ambiguous) :: _ => .error (.ambiguousOption argument)
  | (_, .option used) :: rest =>
      let following := match rest with
        | (value, .word) :: _ => some value
        | _ => none
      match applyOption specs used following leftover.settings with
      | .error fault => .error fault
      | .ok (settings, consumed) =>
          readTagged specs (if consumed then rest.drop 1 else rest)
            { leftover with settings, endsWithWord := false }
termination_by tagged.length
decreasing_by
  · simp
  · simp
  · split <;> simp only [List.length_drop, List.length_cons] <;> omega

/-- The first ambiguous argument, which is refused before anything is read. -/
def ambiguous? (specs : List (OptionSpec σ)) (arguments : List String) : Option String :=
  arguments.find? fun argument =>
    match classify specs argument with
    | .ambiguous => true
    | _ => false

/-- Reads options and at most one operand. -/
def readOptions (specs : List (OptionSpec σ)) (settings : σ) (arguments : List String) :
    Except UsageFault (σ × Option String) :=
  let before := arguments.takeWhile (· != "--")
  let after := arguments.dropWhile (· != "--")
  match ambiguous? specs before with
  | some argument => .error (.ambiguousOption argument)
  | none =>
      match readTagged specs (before.map (fun argument => (argument, classify specs argument)))
          { settings, words := [], surplus := [], endsWithWord := false } with
      | .error fault => .error fault
      | .ok leftover =>
          let surplus := leftover.surplus ++ leftover.words.drop 1 ++
            match after, leftover.words with
            | [], _ => []
            | _ :: more, [] => more.drop 1
            | mark :: more, _ :: _ => if leftover.endsWithWord then more else mark :: more
          match surplus with
          | argument :: _ => .error (.surplusArgument argument)
          | [] => .ok (leftover.settings, leftover.words.head? <|> (after.drop 1).head?)

end Options

/-- The drawing that is asked for. -/
inductive Drawing where
  | flowchart (options : FlowchartOptions)
  | tree (depth : Option Int)
  | layout (orientation : Orientation)

def Drawing.name : Drawing → String
  | .flowchart _ => "flowchart"
  | .tree _ => "tree"
  | .layout _ => "layout"

/-- Where the rule is read from. -/
inductive Source where
  | standardInput
  | file (path : String)

structure Arguments where
  verbose : Bool
  drawing : Drawing
  file : Option String

/-- A lone minus sign is standard input, as is no file. -/
def Arguments.source (arguments : Arguments) : Source :=
  match arguments.file with
  | none => .standardInput
  | some path => if path = "-" then .standardInput else .file path

def helpOption {σ : Type} : OptionSpec σ := { names := ["-h", "--help"], effect := .help }

/-- A theme by its name; `--` takes the theme back. -/
def readTheme? (value : String) : Option (Option Theme) :=
  if value = "--" then some none else (Theme.ofName? value).map some

def flowchartOptions : List (OptionSpec FlowchartOptions) :=
  [helpOption,
    { names := ["--orientation", "-o"]
      effect := .read fun value options =>
        (FlowDirection.ofName? value).map ({ options with direction := · }) },
    { names := ["--no-values"]
      effect := .set ({ · with includeValues := false }) },
    { names := ["--theme"]
      effect := .read fun value options =>
        (readTheme? value).map ({ options with theme := · }) }]

def treeOptions : List (OptionSpec (Option Int)) :=
  [helpOption,
    { names := ["--depth", "-d"]
      effect := .read fun value _ => (Text.integer? value).map some }]

def layoutOptions : List (OptionSpec Orientation) :=
  [helpOption,
    { names := ["--horizontal"]
      effect := .set (fun _ => .horizontal) }]

/-- The options in front of the command. -/
def commonOptions : List (OptionSpec Bool) :=
  [helpOption, { names := ["--verbose", "-v"], effect := .set (fun _ => true) }]

def readDrawing (name : String) (arguments : List String) :
    Except UsageFault (Drawing × Option String) :=
  if name = "flowchart" then
    (readOptions flowchartOptions FlowchartOptions.standard arguments).map
      (fun (options, file) => (.flowchart options, file))
  else if name = "tree" then
    (readOptions treeOptions none arguments).map (fun (depth, file) => (.tree depth, file))
  else if name = "layout" then
    (readOptions layoutOptions .vertical arguments).map
      (fun (orientation, file) => (.layout orientation, file))
  else .error (.unknownCommand name)

/-- Reads the options up to the command, then the command with all that follows it. -/
def readCommand (verbose : Bool) (unknown : Option String) :
    List String → Except UsageFault Arguments
  | [] => .error .missingCommand
  | argument :: rest =>
      if argument = "--" then
        .error (match rest with
          | [] => .missingCommand
          | _ => .unknownCommand argument)
      else
        match classify commonOptions argument with
        | .word =>
            match readDrawing argument rest, unknown with
            | .error fault, _ => .error fault
            | .ok _, some surplus => .error (.surplusArgument surplus)
            | .ok (drawing, file), none => .ok { verbose, drawing, file }
        | .unknown => readCommand verbose (unknown <|> some argument) rest
        | .ambiguous => .error (.ambiguousOption argument)
        | .option used =>
            match applyOption commonOptions used none verbose with
            | .error fault => .error fault
            | .ok (verbose, _) => readCommand verbose unknown rest

def Arguments.parse (arguments : List String) : Except UsageFault Arguments :=
  match ambiguous? commonOptions (arguments.takeWhile (· != "--")) with
  | some argument => .error (.ambiguousOption argument)
  | none => readCommand false none arguments

end RuleChart.Command
