/-
  The lexeme at the front of a text. A lexeme always takes the first character; the readers
  here answer how many more characters belong to it.
-/
import TemplateExpr.Token.Number
import TemplateExpr.Token.Literal
import TemplateExpr.Token.Symbol

namespace TemplateExpr.Lexeme
open Text

/-- A name or reserved word that begins with `c`. -/
def readWord (c : Char) (cs : List Char) : Lexeme × Nat :=
  let more := cs.takeWhile isNamePart
  (Symbol.word (String.ofList (c :: more)), more.length)

/-- A name behind the sigil, which is not compared with the reserved words. -/
def readSigil (sigil : Sigil) (cs : List Char) : Lexeme × Nat :=
  if cs.head?.any isNameStart then
    let more := cs.takeWhile isNamePart
    (.name (String.ofList (sigil.char :: more)), more.length)
  else (.fault (.bareSigil sigil), 0)

/-- An operator that begins with `c`. -/
def readOperator (c : Char) (cs : List Char) : Lexeme × Nat :=
  match Symbol.operatorAt? (c :: cs) with
  | some op => (.operator op, op.length - 1)
  | none => (.fault (.strayCharacter c), 0)

/-- The lexeme that begins with `c`, when `cs` follows, and how many characters of `cs` belong
    to it. -/
def read (g : Grammar) (c : Char) (cs : List Char) : Lexeme × Nat :=
  match g.sigil? c with
  | some sigil => readSigil sigil cs
  | none =>
    if isNameStart c then readWord c cs
    else if isDigit c || (c == '.' && cs.head?.any isDigit) then
      let number := Number.read (c :: cs)
      (number.1, number.2 - 1)
    else if Symbol.marks.contains c then (.mark c, 0)
    else if c == '\'' || c == '"' then Literal.read c cs
    else readOperator c cs

end TemplateExpr.Lexeme
