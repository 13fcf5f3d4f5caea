/-
  The arguments of the command: options that hold for every subcommand, the subcommand, and
  its own options and operand.

  Arguments are read from left to right, and the first fault, or the first request for help or
  for the version, decides. Behind `--` nothing is an option.
-/
import TemplateExpr.CommandLine.Offset

namespace TemplateExpr.CommandLine
open Source

/-- Why arguments are refused. -/
inductive UsageFault where
  | unknown (argument : String)
  | missingValue (option : String)
  | needlessValue (option : String)
  /-- An option that may be given once is given again. -/
  | repeated (option : String)
  | badValue (option reason : String)
  | surplus (argument : String)
  | missingCommand
  | missingFile
deriving DecidableEq, Repr, Inhabited

def UsageFault.message : UsageFault → String
  | unknown argument => "unexpected argument '" ++ argument ++ "' found"
  | missingValue option => "a value is required for '" ++ option ++ "' but none was supplied"
  | needlessValue option => "unexpected value for '" ++ option ++ "' found; no more were expected"
  | repeated option => "the argument '" ++ option ++ "' cannot be used multiple times"
  | badValue option reason => "invalid value for '" ++ option ++ "': " ++ reason
  | surplus argument => "unexpected argument '" ++ argument ++ "' found"
  | missingCommand => "a subcommand is required but one was not provided"
  | missingFile => "the following required arguments were not provided: FILE"

/-- What ends the reading of arguments early. -/
inductive Stop where
  | fault (fault : UsageFault)
  | help
  | version
deriving DecidableEq, Repr, Inhabited

/-- Where an argument stands. -/
inductive Level where
  | top
  | parse
  | scan
deriving DecidableEq, Repr, Inhabited

/-- The options. -/
inductive Switch where
  | config
  | helper
  | url
  | bindings
  | verbose
  | offset
  | help
  | version
deriving DecidableEq, Repr, Inhabited

namespace Switch

/-- The option with a long name, behind `--`. -/
def ofLong? (level : Level) : String → Option Switch
  | "config" => some config
  | "helper" => some helper
  | "url" => some url
  | "bindings" => some bindings
  | "verbose" => some verbose
  | "help" => some help
  | "offset" => if level = .parse then some offset else none
  | "version" => if level = .top then some version else none
  | _ => none

/-- The option with a short name, behind `-`. -/
def ofShort? (level : Level) : Char → Option Switch
  | 'c' => some config
  | 'b' => some bindings
  | 'v' => some verbose
  | 'h' => some help
  | 'V' => if level = .top then some version else none
  | _ => none

/-- The long name. -/
def name : Switch → String
  | config => "--config"
  | helper => "--helper"
  | url => "--url"
  | bindings => "--bindings"
  | verbose => "--verbose"
  | offset => "--offset"
  | help => "--help"
  | version => "--version"

def takesValue : Switch → Bool
  | config | helper | url | offset => true
  | bindings | verbose | help | version => false

end Switch

/-- What was given on one level. -/
structure Given where
  config : Option String := none
  helpers : List String := []
  url : Option String := none
  bindings : Bool := false
  verbosity : Nat := 0
  origin : Option Origin := none
  operand : Option String := none
deriving DecidableEq, Repr, Inhabited

namespace Given

/-- An option with its value. -/
def value (given : Given) (switch : Switch) (text : String) : Except Stop Given :=
  let once {α : Type} (earlier : Option α) (later : Except Stop Given) : Except Stop Given :=
    if earlier.isSome then .error (.fault (.repeated switch.name)) else later
  match switch with
  | .config =>
    once given.config
      (if text.isEmpty then .error (.fault (.badValue switch.name "a path is required"))
        else .ok { given with config := some text })
  | .helper => .ok { given with helpers := given.helpers ++ [text] }
  | .url => once given.url (.ok { given with url := some text })
  | .offset =>
    once given.origin
      (match originOf text with
        | .ok origin => .ok { given with origin := some origin }
        | .error fault => .error (.fault (.badValue switch.name fault.message)))
  | .bindings | .verbose | .help | .version => .error (.fault (.needlessValue switch.name))

/-- An option without value. -/
def flag (given : Given) (switch : Switch) : Except Stop Given :=
  match switch with
  | .bindings =>
    if given.bindings then .error (.fault (.repeated switch.name))
    else .ok { given with bindings := true }
  | .verbose => .ok { given with verbosity := given.verbosity + 1 }
  | .help => .error .help
  | .version => .error .version
  | .config | .helper | .url | .offset => .error (.fault (.missingValue switch.name))

/-- An argument that is no option. -/
def argument (given : Given) (level : Level) (text : String) : Except Stop Given :=
  if level = .top then .error (.fault (.unknown text))
  else if given.operand.isSome then .error (.fault (.surplus text))
  else if level = .scan && text.isEmpty then .error (.fault (.badValue "FILE" "a path is required"))
  else .ok { given with operand := some text }

/-- What holds for a subcommand when `outer` was given before it. What is given again replaces
    what was given before. -/
def within (inner outer : Given) : Given :=
  { inner with
    config := inner.config <|> outer.config
    helpers := if inner.helpers.isEmpty then outer.helpers else inner.helpers
    url := inner.url <|> outer.url
    bindings := inner.bindings || outer.bindings
    verbosity := if inner.verbosity = 0 then outer.verbosity else inner.verbosity }

end Given

/-- Short options in one argument. The rest of the argument is the value of an option that
    takes one; if nothing is left, the option waits for the next argument. -/
def readShort (level : Level) : List Char → Given → Except Stop (Given × Option Switch)
  | [], given => .ok (given, none)
  | c :: cs, given =>
    match Switch.ofShort? level c with
    | none => .error (.fault (.unknown (String.ofList ['-', c])))
    | some switch =>
      if switch.takesValue then
        match cs with
        | [] => .ok (given, some switch)
        | '=' :: rest => do .ok (← given.value switch (String.ofList rest), none)
        | _ => do .ok (← given.value switch (String.ofList cs), none)
      else do
        let given ← given.flag switch
        readShort level cs given

/-- A long option, perhaps with a value behind `=`. -/
def readLong (level : Level) (cs : List Char) (given : Given) :
    Except Stop (Given × Option Switch) :=
  let name := String.ofList (cs.takeWhile (· != '='))
  match Switch.ofLong? level name, cs.dropWhile (· != '=') with
  | none, _ => .error (.fault (.unknown ("--" ++ name)))
  | some switch, [] =>
    if switch.takesValue then .ok (given, some switch)
    else do .ok (← given.flag switch, none)
  | some switch, _ :: text =>
    if switch.takesValue then do .ok (← given.value switch (String.ofList text), none)
    else .error (.fault (.needlessValue switch.name))

/-- The argument looks like an option; a single dash does not. -/
def looksLikeSwitch (argument : String) : Bool :=
  match argument.toList with
  | '-' :: _ :: _ => true
  | _ => false

/-- The options of one argument, if it looks like some. -/
def readSwitches (level : Level) (argument : String) (given : Given) :
    Except Stop (Given × Option Switch) :=
  match argument.toList with
  | '-' :: '-' :: cs => readLong level cs given
  | '-' :: cs => readShort level cs given
  | _ => .ok (given, none)

/-- The subcommand that an argument names on the top level. -/
def subcommand? : String → Option Level
  | "parse" => some .parse
  | "scan" => some .scan
  | _ => none

/-- Help may be asked for a subcommand by its name. -/
def readHelp : List String → Stop
  | [] | ["parse"] | ["scan"] | ["help"] => .help
  | name :: _ => .fault (.unknown name)

/-- The arguments of one level, where `waiting` is the option whose value comes next and
    `ended` says that `--` was read. A subcommand is answered with the arguments behind it. -/
def readLevel (level : Level) (waiting : Option Switch) (ended : Bool) (given : Given) :
    List String → Except Stop (Given × Option (Level × List String))
  | [] =>
    match waiting with
    | some switch => .error (.fault (.missingValue switch.name))
    | none => .ok (given, none)
  | argument :: rest =>
    if ended then
      match given.argument level argument with
      | .error stop => .error stop
      | .ok given => readLevel level none true given rest
    else
      match waiting with
      | some switch =>
        if looksLikeSwitch argument then .error (.fault (.missingValue switch.name))
        else
          match given.value switch argument with
          | .error stop => .error stop
          | .ok given => readLevel level none false given rest
      | none =>
        if argument = "--" then readLevel level none true given rest
        else if looksLikeSwitch argument then
          match readSwitches level argument given with
          | .error stop => .error stop
          | .ok (given, waiting) => readLevel level waiting false given rest
        else if level = .top && argument = "help" then .error (readHelp rest)
        else
          match (if level = .top then subcommand? argument else none) with
          | some inner => .ok (given, some (inner, rest))
          | none =>
            match given.argument level argument with
            | .error stop => .error stop
            | .ok given => readLevel level none false given rest

/-- What the command is asked to do. -/
inductive Task where
  /-- Analyse one expression, given as an argument or on the standard input. -/
  | parse (expression : Option String) (origin : Option Origin)
  /-- Analyse every region of a file. -/
  | scan (path : String)
deriving DecidableEq, Repr, Inhabited

/-- A task and what was said about it. -/
structure Invocation where
  task : Task
  config : Option String
  helpers : List String
  url : Option String
  bindings : Bool
  verbosity : Nat
deriving DecidableEq, Repr, Inhabited

/-- The task of a subcommand. -/
def taskOf (level : Level) (given : Given) : Except Stop Task :=
  match level with
  | .top => .error (.fault .missingCommand)
  | .parse => .ok (.parse given.operand given.origin)
  | .scan =>
    match given.operand with
    | some path => .ok (.scan path)
    | none => .error (.fault .missingFile)

/-- What the arguments ask for. -/
def Invocation.ofArguments (arguments : List String) : Except Stop Invocation := do
  match ← readLevel .top none false {} arguments with
  | (_, none) => .error (.fault .missingCommand)
  | (outer, some (level, rest)) =>
    let (inner, _) ← readLevel level none false {} rest
    let task ← taskOf level inner
    let given := inner.within outer
    .ok ⟨task, given.config, given.helpers, given.url, given.bindings, given.verbosity⟩

end TemplateExpr.CommandLine
