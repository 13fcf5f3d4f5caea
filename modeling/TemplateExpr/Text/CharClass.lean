/-
  The character classes of the expression language: blank space, line ends, digits, quotes and
  the characters of names.

  * `isSpace_of_isNewline`: every line end is blank space.
  * `isNamePart_of_isNameStart`: what may start a name may also continue it.
-/
import TemplateExpr.Text.Alphabetic
import TemplateExpr.Text.Numeric

namespace TemplateExpr.Text

/-- Line feed, carriage return, and the line and paragraph separators end a line. -/
def isNewline (c : Char) : Bool :=
  c == '\n' || c == '\r' || c == '\u2028' || c == '\u2029'

/-- Space, tabs, form feed, no-break space, byte order mark, and the line ends. -/
def isSpace (c : Char) : Bool :=
  c == ' ' || c == '\t' || c == '\x0b' || c == '\x0c' || c == '\u00a0' || c == '\ufeff' ||
    isNewline c

/-- The digits `0` to `9`. -/
def isDigit (c : Char) : Bool :=
  c.isDigit

/-- A digit of base sixteen, in either case. -/
def isHexDigit (c : Char) : Bool :=
  c.isDigit || ('a' ≤ c && c ≤ 'f') || ('A' ≤ c && c ≤ 'F')

/-- The single quote, the double quote and the back quote. -/
def isQuote (c : Char) : Bool :=
  c == '\'' || c == '"' || c == '`'

/-- A name starts with a letter, `_` or `$`. -/
def isNameStart (c : Char) : Bool :=
  isAlphabetic c || c == '_' || c == '$'

/-- A name goes on with what may start it, or with a number. -/
def isNamePart (c : Char) : Bool :=
  isNameStart c || isNumeric c

theorem isSpace_of_isNewline {c : Char} (h : isNewline c = true) : isSpace c = true := by
  simp [isSpace, h]

theorem isNamePart_of_isNameStart {c : Char} (h : isNameStart c = true) :
    isNamePart c = true := by
  simp [isNamePart, h]

/-- The value of a digit in bases up to sixteen. -/
def digitValue? (c : Char) : Option Nat :=
  if c.isDigit then some (c.toNat - '0'.toNat)
  else if 'a' ≤ c && c ≤ 'f' then some (c.toNat - 'a'.toNat + 10)
  else if 'A' ≤ c && c ≤ 'F' then some (c.toNat - 'A'.toNat + 10)
  else none

/-- The value of a digit that is below the base `radix`. -/
def digitBelow? (radix : Nat) (c : Char) : Option Nat :=
  (digitValue? c).filter (· < radix)

/-- The number that digits write in the base `radix`; a character that is no digit counts
    zero. -/
def digitsValue (radix : Nat) (cs : List Char) : Nat :=
  cs.foldl (fun n c => n * radix + (digitValue? c).getD 0) 0

end TemplateExpr.Text
