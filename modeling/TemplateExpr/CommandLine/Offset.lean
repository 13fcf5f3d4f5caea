/-
  The origin of an expression as it is written on the command line: offset, line and column
  with colons between them.
-/
import TemplateExpr.Source.Span
import TemplateExpr.Text.Blank
import TemplateExpr.Text.Quoted

namespace TemplateExpr.CommandLine
open Source Text

/-- Why a text is no origin. -/
inductive OffsetFault where
  /-- It has not three parts. -/
  | shape (value : String)
  /-- The part of this name is no number. -/
  | part (name value : String)
deriving DecidableEq, Repr, Inhabited

def OffsetFault.message : OffsetFault → String
  | shape value => "Expected POS:LINE:COLUMN, got " ++ quoted value
  | part name value => "Invalid " ++ name ++ " in offset " ++ quoted value

/-- A number of 64 bits in digits, perhaps behind a plus sign. -/
def natural? (cs : List Char) : Option Nat :=
  let digits := match cs with
    | '+' :: rest => rest
    | _ => cs
  if digits.isEmpty || !digits.all isDigit then none
  else
    let n := digitsValue 10 digits
    if n < UInt64.size then some n else none

/-- The pieces between the separators. -/
def pieces (separator : Char) : List Char → List (List Char)
  | [] => [[]]
  | c :: cs =>
    if c = separator then [] :: pieces separator cs
    else
      match pieces separator cs with
      | [] => [[c]]
      | piece :: others => (c :: piece) :: others

/-- Blanks around the numbers do not matter. -/
def originOf (value : String) : Except OffsetFault Origin :=
  match pieces ':' value.toList with
  | [offset, line, column] =>
    let number (name : String) (cs : List Char) : Except OffsetFault Nat :=
      match natural? (trimBlank cs) with
      | some n => .ok n
      | none => .error (.part name value)
    do
      let offset ← number "position" offset
      let line ← number "line" line
      let column ← number "column" column
      .ok ⟨offset, line, column⟩
  | _ => .error (.shape value)

end TemplateExpr.CommandLine
