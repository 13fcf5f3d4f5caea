/-
  A text between double quotes, with escapes for what would not show: the form in which
  messages name a value that a user gave.
-/
import TemplateExpr.Text.Printable
import TemplateExpr.Text.GraphemeExtend
import TemplateExpr.Text.DefaultIgnorable

namespace TemplateExpr.Text

/-- The number of a character in base sixteen, between braces. -/
def escapeByNumber (c : Char) : List Char :=
  ['\\', 'u', '{'] ++ Nat.toDigits 16 c.toNat ++ ['}']

/-- The character shows, and it shows by itself: a mark would attach to the character before
    it, which may be the quote. -/
def standsAlone (c : Char) : Bool :=
  isPrintable c && !isDefaultIgnorable c && !isAttachedMark c

/-- One character as it stands between the quotes. -/
def escapeChar (c : Char) : List Char :=
  match c with
  | '\x00' => ['\\', '0']
  | '\t' => ['\\', 't']
  | '\r' => ['\\', 'r']
  | '\n' => ['\\', 'n']
  | '\\' => ['\\', '\\']
  | '"' => ['\\', '"']
  | _ => if standsAlone c then [c] else escapeByNumber c

/-- The text between double quotes. -/
def quoted (text : String) : String :=
  String.ofList ('"' :: (text.toList.flatMap escapeChar ++ ['"']))

end TemplateExpr.Text
