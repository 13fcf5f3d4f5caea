/-
  Reading the expressions of a template: the language they are in, what surrounds each of
  them, and the two views of the result.
-/
import TemplateExpr.Syntax.OfText
import TemplateExpr.Binding.Classify
import TemplateExpr.Binding.Basic

namespace TemplateExpr
open Source (Origin)

/-- The language of a template: its sigils, and the names that it has of its own. -/
structure Dialect where
  grammar : Grammar := .template
  globals : Names := Names.defaultGlobals
deriving DecidableEq, Repr, Inhabited

/-- What surrounds one expression. -/
structure Surroundings where
  /-- Where the expression begins in its document. -/
  origin : Option Origin := none
  /-- The URL of the document, for the reports. -/
  url : Option String := none
  helpers : Names := Names.empty
deriving DecidableEq, Repr, Inhabited

/-- The names that are known when an expression is classified. -/
def Dialect.vocabulary (dialect : Dialect) (around : Surroundings) : Vocabulary :=
  ⟨dialect.globals, around.helpers⟩

/-- The program of a text, with the names as they are written. -/
def Dialect.parse (dialect : Dialect) (around : Surroundings) (code : String) :
    Except SyntaxError Program :=
  Program.ofText dialect.grammar around.origin around.url code.toList

/-- The program of a text, with its references classified. -/
def Dialect.analyse (dialect : Dialect) (around : Surroundings) (code : String) :
    Except SyntaxError Program :=
  (dialect.parse around code).map (Program.classify (dialect.vocabulary around))

theorem Dialect.analyse_eq_ok_iff {dialect : Dialect} {around : Surroundings} {code : String}
    {program : Program} : dialect.analyse around code = .ok program ↔
      ∃ parsed, dialect.parse around code = .ok parsed ∧
        parsed.classify (dialect.vocabulary around) = program := by
  unfold analyse
  cases dialect.parse around code <;> simp [Except.map]

/-- What is shown of a program. -/
inductive View where
  | tree
  | bindings
deriving DecidableEq, Repr, Inhabited

/-- A program as it is shown. -/
inductive Report where
  | tree (program : Program)
  | bindings (found : List Binding)
deriving Inhabited

def View.of : View → Program → Report
  | tree, program => .tree program
  | bindings, program => .bindings program.bindings

/-- A text, analysed and shown. -/
def Dialect.report (dialect : Dialect) (around : Surroundings) (view : View) (code : String) :
    Except SyntaxError Report :=
  (dialect.analyse around code).map view.of

end TemplateExpr
