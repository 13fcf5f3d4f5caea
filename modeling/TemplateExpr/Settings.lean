/-
  Settings: the helpers and globals that a project allows, read from a JSON file and added to
  on the command line.
-/
import TemplateExpr.Codec.Report
import TemplateExpr.Json.OfText
import TemplateExpr.Text.Quoted
import TemplateExpr.Files

namespace TemplateExpr
open Json

/-- The lists of a project. Without a list of globals the usual ones hold. -/
structure Settings where
  helpers : List String
  globals : Option (List String)
deriving DecidableEq, Repr, Inhabited

/-- Why there are no settings. -/
inductive SettingsFault where
  | unreadable (path : String) (fault : FileFault)
  | malformed (path : String)
  /-- A name on a list is no plain name. -/
  | invalidName (name : String)
deriving DecidableEq, Repr, Inhabited

def SettingsFault.message : SettingsFault → String
  | unreadable path _ => "Failed to read config " ++ path
  | malformed path => "Failed to parse config " ++ path
  | invalidName name => "Invalid identifier in allow-list: " ++ Text.quoted name

/-- What lies behind the message. -/
def SettingsFault.cause? : SettingsFault → Option String
  | unreadable _ fault => some fault.message
  | malformed _ => some "expected JSON with the lists helpers and globals"
  | invalidName _ => none

namespace Settings

def empty : Settings :=
  ⟨[], none⟩

/-- The first character of a plain name. -/
def isPlainStart (c : Char) : Bool :=
  c.isAlpha || c == '_' || c == '$'

/-- Letters and digits of ASCII, `_` and `$`, not beginning with a digit. -/
def isPlainName (name : String) : Bool :=
  match name.toList with
  | [] => false
  | c :: cs => isPlainStart c && cs.all fun d => isPlainStart d || d.isDigit

def checkName (name : String) : Except SettingsFault Unit :=
  if isPlainName name then .ok () else .error (.invalidName name)

/-- All names on both lists are plain. -/
def check (settings : Settings) : Except SettingsFault Unit :=
  (settings.helpers ++ settings.globals.getD []).forM checkName

def texts? (json : Json) : Option (List String) :=
  json.listOf? text?

/-- An object with at most the two lists and no other entry, or an array of both. The helpers
    may be missing but not null, the globals may be either. -/
def ofJson? : Json → Option Settings
  | .object entries =>
    let keys := entries.map (·.1)
    if keys.all (["helpers", "globals"].contains ·) && keys.eraseDups.length == keys.length then do
      let helpers ← match entries.lookup "helpers" with
        | none => some []
        | some value => texts? value
      let globals ← (Json.object entries).optional? "globals" texts?
      some ⟨helpers, globals⟩
    else none
  | .array [helpers, globals] => do
    let helpers ← texts? helpers
    let globals ← match globals with
      | .null => some none
      | value => (texts? value).map some
    some ⟨helpers, globals⟩
  | _ => none

/-- The settings in a file. -/
def read (files : Files) (path : String) : Except SettingsFault Settings :=
  match files path with
  | .error fault => .error (.unreadable path fault)
  | .ok content =>
    match (Json.ofText? content).bind ofJson? with
    | none => .error (.malformed path)
    | some settings => do
      settings.check
      .ok settings

/-- One more helper, unless it is on the list. -/
def addHelper (settings : Settings) (name : String) : Settings :=
  if settings.helpers.contains name then settings
  else { settings with helpers := settings.helpers ++ [name] }

/-- More helpers, whose names have to be plain. -/
def addHelpers (settings : Settings) : List String → Except SettingsFault Settings
  | [] => .ok settings
  | name :: names => do
    checkName name
    (settings.addHelper name).addHelpers names

/-- The helpers without repetition. -/
def helperNames (settings : Settings) : Names :=
  Names.ofList settings.helpers

/-- The globals without repetition. -/
def globalNames (settings : Settings) : Names :=
  match settings.globals with
  | some names => Names.ofList names
  | none => Names.defaultGlobals

/-- The language with the globals of the project. -/
def dialect (settings : Settings) : Dialect :=
  { globals := settings.globalNames }

/-- Surroundings with the helpers of the project. -/
def surroundings (settings : Settings) : Surroundings :=
  { helpers := settings.helperNames }

end Settings

end TemplateExpr
