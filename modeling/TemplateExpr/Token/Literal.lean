/-
  Text literals: characters between two quotes on one line, with escapes behind a backslash.

  An escape is `\u` with four digits of base sixteen, `\x` with two, a letter or digit that
  stands for a control character, or any other character, which stands for itself.
-/
import TemplateExpr.Token.Basic

namespace TemplateExpr.Literal
open Text

/-- The character that a letter or digit behind a backslash stands for. -/
def escaped : Char → Char
  | 'n' => '\n'
  | 'r' => '\r'
  | 't' => '\t'
  | 'b' => '\x08'
  | 'f' => '\x0c'
  | 'v' => '\x0b'
  | '0' => '\x00'
  | c => c

/-- The character of a number, if there is one; the surrogates are none. -/
def charOfNat? (n : Nat) : Option Char :=
  if n.isValidChar then some (Char.ofNat n) else none

/-- The digits of base sixteen at the front of a text, at most `width` of them. -/
def hexDigits (width : Nat) (cs : List Char) : List Char :=
  (cs.take width).takeWhile isHexDigit

/-- The character that exactly `width` digits of base sixteen stand for. -/
def hexChar? (width : Nat) (cs : List Char) : Option Char :=
  let digits := hexDigits width cs
  if digits.length = width then charOfNat? (digitsValue 16 digits) else none

/-- One character of a literal, or the reason why there is none. -/
inductive Piece where
  /-- A character, written with `length` characters. -/
  | char (c : Char) (length : Nat)
  /-- The literal is at fault after `length` more characters. -/
  | fault (fault : LexicalFault) (length : Nat)
deriving Repr

/-- What stands behind a backslash. -/
def escape : List Char → Piece
  | [] => .fault .openText 0
  | 'u' :: cs =>
    match hexChar? 4 cs with
    | some c => .char c 5
    | none =>
      let digits := hexDigits 4 cs
      .fault (.unicodeEscape (String.ofList digits)) (1 + digits.length)
  | 'x' :: cs =>
    match hexChar? 2 cs with
    | some c => .char c 3
    | none =>
      let digits := hexDigits 2 cs
      .fault (.hexEscape (String.ofList digits)) (1 + digits.length)
  | c :: _ => .char (escaped c) 1

/-- The text up to the closing quote, after the characters `seen` (last one first), and how
    many characters it takes, the quote among them. -/
def readBody (quote : Char) (seen : List Char) : List Char → Lexeme × Nat
  | [] => (.fault .openText, 0)
  | c :: cs =>
    if c = quote then (.text (String.ofList seen.reverse), 1)
    else if isNewline c then (.fault .openText, 0)
    else if c = '\\' then
      match escape cs with
      | .fault fault length => (.fault fault, 1 + length)
      | .char d length =>
        let rest := readBody quote (d :: seen) (cs.drop length)
        (rest.1, 1 + length + rest.2)
    else
      let rest := readBody quote (c :: seen) cs
      (rest.1, 1 + rest.2)
termination_by cs => cs.length
decreasing_by all_goals simp only [List.length_cons, List.length_drop]; omega

/-- A literal with the given quote, behind its opening quote. -/
def read (quote : Char) (cs : List Char) : Lexeme × Nat :=
  readBody quote [] cs

end TemplateExpr.Literal
