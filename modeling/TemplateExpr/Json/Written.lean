/-
  The text of a JSON value: on one line, or with one line for each item and entry.
-/
import TemplateExpr.Json.Basic
import TemplateExpr.Decimal.Notation
import TemplateExpr.Text.Join

namespace TemplateExpr.Json

/-- Equally near decimals go to the even digit, a whole number keeps a fraction, and the
    exponent is written from a hundred-thousandth down and from ten to the sixteenth up. What
    is not finite is null. -/
def numberFormat : Decimal.Notation where
  tie := .toEven
  positional := fun exponent => -5 ≤ exponent ∧ exponent < 16
  wholeEnd := ".0"
  infinity := "null"
  notANumber := "null"

/-- One character between the quotes. Only quotes, backslashes and controls are escaped. -/
def escapeChar (c : Char) : List Char :=
  match c with
  | '"' => ['\\', '"']
  | '\\' => ['\\', '\\']
  | '\x08' => ['\\', 'b']
  | '\x0c' => ['\\', 'f']
  | '\n' => ['\\', 'n']
  | '\r' => ['\\', 'r']
  | '\t' => ['\\', 't']
  | _ =>
    if c.toNat < 0x20 then
      ['\\', 'u', '0', '0', Nat.digitChar (c.toNat / 16), Nat.digitChar (c.toNat % 16)]
    else [c]

def writtenString (value : String) : String :=
  String.ofList ('"' :: (value.toList.flatMap escapeChar ++ ['"']))

/-- The text of a value that has no parts. -/
def writtenScalar : Json → String
  | null => "null"
  | boolean true => "true"
  | boolean false => "false"
  | whole value => toString value
  | float value => if value.isFinite then numberFormat.write value else "null"
  | text value => writtenString value
  | array _ | object _ => ""

/-- Two spaces for each level. -/
def indent (level : Nat) : String :=
  String.ofList (List.replicate (2 * level) ' ')

/-- The parts on lines of their own between two marks. -/
def lines (opening closing : String) (level : Nat) (parts : List String) : String :=
  opening ++ "\n" ++ joinWith ",\n" (parts.map (indent (level + 1) ++ ·)) ++ "\n" ++
    indent level ++ closing

mutual

/-- The text on one line. -/
def compact : Json → String
  | array items => "[" ++ joinWith "," (compactItems items) ++ "]"
  | object entries => "\x7b" ++ joinWith "," (compactEntries entries) ++ "\x7d"
  | scalar => writtenScalar scalar

def compactItems : List Json → List String
  | [] => []
  | item :: items => item.compact :: compactItems items

def compactEntries : List (String × Json) → List String
  | [] => []
  | (key, value) :: entries =>
    (writtenString key ++ ":" ++ value.compact) :: compactEntries entries

end

mutual

/-- The text on several lines, `level` levels in. -/
def pretty (level : Nat) : Json → String
  | array [] => "[]"
  | array (item :: items) =>
    lines "[" "]" level (item.pretty (level + 1) :: prettyItems (level + 1) items)
  | object [] => "\x7b\x7d"
  | object ((key, value) :: entries) =>
    lines "\x7b" "\x7d" level
      ((writtenString key ++ ": " ++ value.pretty (level + 1)) ::
        prettyEntries (level + 1) entries)
  | scalar => writtenScalar scalar

def prettyItems (level : Nat) : List Json → List String
  | [] => []
  | item :: items => item.pretty level :: prettyItems level items

def prettyEntries (level : Nat) : List (String × Json) → List String
  | [] => []
  | (key, value) :: entries =>
    (writtenString key ++ ": " ++ value.pretty level) :: prettyEntries level entries

end

end TemplateExpr.Json
