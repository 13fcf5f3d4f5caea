/-
  Running the command: from the arguments, the files and the standard input to what is printed
  and the exit code.
-/
import TemplateExpr.CommandLine.Arguments
import TemplateExpr.Settings
import TemplateExpr.Json.Written

namespace TemplateExpr.CommandLine

def programName : String := "endorphin-expr"

def version : String := "0.1.0"

/-- Which records of the log are shown for a number of `-v`. -/
def logFilter : Nat → String
  | 0 => "warn"
  | 1 => "debug"
  | _ => "trace"

def helpText : String :=
  joinWith "\n"
    ["Template expression parser",
     "",
     "Usage: " ++ programName ++ " [OPTIONS] <COMMAND>",
     "",
     "Commands:",
     "  parse [EXPR] [--offset POS:LINE:COLUMN]  Parse a single expression",
     "  scan <FILE>                              Parse every expression of a template",
     "  help                                     Print this message",
     "",
     "Options:",
     "  -c, --config <PATH>  JSON file with helper and global names",
     "      --helper <NAME>  Register a helper name (repeatable)",
     "      --url <URL>      Document URL reported with syntax errors",
     "  -b, --bindings       Print classified identifiers instead of the tree",
     "  -v, --verbose...     Increase log verbosity",
     "  -h, --help           Print help",
     "  -V, --version        Print version",
     ""]

/-- Why a command fails once its arguments are understood. -/
inductive CommandFault where
  | settings (fault : SettingsFault)
  /-- The standard input gives no expression. -/
  | input (fault : FileFault)
  | template (path : String) (fault : FileFault)
  /-- The document itself is at fault. -/
  | syntaxError (e : SyntaxError)
deriving DecidableEq, Repr, Inhabited

def CommandFault.message : CommandFault → String
  | settings fault => fault.message
  | input _ => "Failed to read expression from stdin"
  | template path _ => "Failed to read template " ++ path
  | syntaxError e => e.render

def CommandFault.cause? : CommandFault → Option String
  | settings fault => fault.cause?
  | input fault | template _ fault => some fault.message
  | syntaxError _ => none

/-- The message, with its cause behind a colon. -/
def CommandFault.render (fault : CommandFault) : String :=
  match fault.cause? with
  | some cause => fault.message ++ ": " ++ cause
  | none => fault.message

/-- What a command leaves behind. -/
structure Outcome where
  exit : UInt8
  stdout : String
  stderr : String
deriving DecidableEq, Repr, Inhabited

/-- A text without the line ends at its end. -/
def withoutLineEnds (text : String) : String :=
  String.ofList (text.toList.reverse.dropWhile fun c => c == '\r' || c == '\n').reverse

/-- The expression of an argument as it is, or the text of the standard input without its last
    line ends. -/
def expressionOf (argument : Option String) (input : ByteArray) :
    Except CommandFault String :=
  match argument with
  | some expression => .ok expression
  | none =>
    match textOfBytes input with
    | .ok text => .ok (withoutLineEnds text)
    | .error fault => .error (.input fault)

/-- The settings of an invocation. -/
def Invocation.settings (invocation : Invocation) (files : Files) :
    Except CommandFault Settings :=
  let loaded := match invocation.config with
    | some path => Settings.read files path
    | none => .ok Settings.empty
  (loaded.bind (·.addHelpers invocation.helpers)).mapError .settings

def Invocation.view (invocation : Invocation) : View :=
  if invocation.bindings then .bindings else .tree

def Invocation.surroundings (invocation : Invocation) (settings : Settings) : Surroundings :=
  { settings.surroundings with url := invocation.url }

/-- A template in a file, scanned; its path is the URL if no other is given. -/
def scanTemplate (dialect : Dialect) (files : Files) (path : String) (around : Surroundings)
    (view : View) : Except CommandFault (List RegionReport) :=
  match files path with
  | .error fault => .error (.template path fault)
  | .ok document =>
    let around := { around with url := some (around.url.getD path) }
    (dialect.scan around view document).mapError .syntaxError

/-- A JSON value as it is printed. -/
def printed (json : Json) : String :=
  json.pretty 0 ++ "\n"

/-- A syntax error of a single expression is its own report. -/
def parseOutcome (invocation : Invocation) (settings : Settings) (expression : String)
    (origin : Option Source.Origin) : Outcome :=
  let around := { invocation.surroundings settings with origin }
  match settings.dialect.report around invocation.view expression with
  | .ok report => ⟨0, printed report.toJson, ""⟩
  | .error e => ⟨1, "", e.render ++ "\n"⟩

/-- The exit code tells whether any region is at fault. -/
def scanOutcome (reports : List RegionReport) : Outcome :=
  ⟨if reports.any (·.isFaulty) then 1 else 0,
    printed (.array (reports.map RegionReport.toJson)), ""⟩

/-- The outcome of a task. -/
def Invocation.run (invocation : Invocation) (files : Files) (input : ByteArray) :
    Except CommandFault Outcome := do
  let settings ← invocation.settings files
  match invocation.task with
  | .parse argument origin =>
    let expression ← expressionOf argument input
    .ok (parseOutcome invocation settings expression origin)
  | .scan path =>
    let reports ← scanTemplate settings.dialect files path (invocation.surroundings settings)
      invocation.view
    .ok (scanOutcome reports)

/-- The expression comes from the standard input. -/
def Invocation.needsInput (invocation : Invocation) : Bool :=
  match invocation.task with
  | .parse argument _ => argument.isNone
  | .scan _ => false

/-- The files that the invocation names. -/
def Invocation.paths (invocation : Invocation) : List String :=
  invocation.config.toList ++
    match invocation.task with
    | .parse _ _ => []
    | .scan path => [path]

/-- The outcome when the arguments ask for no task. -/
def Stop.outcome : Stop → Outcome
  | fault why => ⟨2, "", "error: " ++ why.message ++ "\n\nFor more information, try '--help'.\n"⟩
  | help => ⟨0, helpText, ""⟩
  | version => ⟨0, programName ++ " " ++ CommandLine.version ++ "\n", ""⟩

/-- The outcome of an invocation, faults included. -/
def Invocation.outcome (invocation : Invocation) (files : Files) (input : ByteArray) : Outcome :=
  match invocation.run files input with
  | .ok outcome => outcome
  | .error fault => ⟨1, "", "Error: " ++ fault.render ++ "\n"⟩

/-- The outcome of the command. -/
def run (arguments : List String) (files : Files) (input : ByteArray) : Outcome :=
  match Invocation.ofArguments arguments with
  | .ok invocation => invocation.outcome files input
  | .error stop => stop.outcome

end TemplateExpr.CommandLine
