/-
  Tokens: what the characters of an expression stand for, and what can be wrong with them.
-/
import TemplateExpr.Sigil
import TemplateExpr.Source.Span

namespace TemplateExpr

open Source (Span)

/-- Why characters are no token. -/
inductive LexicalFault where
  /-- A comment has no end. -/
  | openComment
  /-- No name follows the sigil. -/
  | bareSigil (sigil : Sigil)
  /-- No token begins with the character. -/
  | strayCharacter (c : Char)
  /-- A number lacks digits, or does not end where its digits end. -/
  | malformedNumber
  /-- A name begins right behind the digits of a number. -/
  | nameAfterNumber
  /-- A text literal has no closing quote on its line. -/
  | openText
  /-- The digits after `\u` are not four, or name no character. -/
  | unicodeEscape (digits : String)
  /-- The digits after `\x` are not two. -/
  | hexEscape (digits : String)
deriving DecidableEq, Repr, Inhabited

def LexicalFault.message : LexicalFault → String
  | openComment => "Unterminated comment"
  | bareSigil sigil => "Expected identifier after '" ++ String.singleton sigil.char ++ "'"
  | strayCharacter c => "Unexpected character '" ++ String.singleton c ++ "'"
  | malformedNumber => "Invalid number"
  | nameAfterNumber => "Identifier directly after number"
  | openText => "Unterminated string constant"
  | unicodeEscape digits => "Invalid unicode escape [\\u" ++ digits ++ "]"
  | hexEscape digits => "Invalid hexadecimal escape [\\x" ++ digits ++ "]"

/-- What a token stands for. -/
inductive Lexeme where
  /-- A bracket or a separator. -/
  | mark (c : Char)
  /-- A name, with its sigil. -/
  | name (text : String)
  | keyword (text : String)
  /-- A text literal; `value` is the text that it denotes. -/
  | text (value : String)
  | operator (symbol : String)
  | number (value : Float)
  | fault (fault : LexicalFault)
deriving Repr, Inhabited

namespace Lexeme

def isMark (c : Char) : Lexeme → Bool
  | mark d => d == c
  | _ => false

def isOperator (symbol : String) : Lexeme → Bool
  | operator op => op == symbol
  | _ => false

def isKeyword (word : String) : Lexeme → Bool
  | keyword w => w == word
  | _ => false

def isFault : Lexeme → Bool
  | fault _ => true
  | _ => false

end Lexeme

/-- A lexeme of a text, its characters and their span. -/
structure Token where
  lexeme : Lexeme
  raw : String
  /-- A line ends between the token before and this one. -/
  newlineBefore : Bool
  span : Span
deriving Repr, Inhabited

namespace Token

/-- The text that a token carries: what a text literal denotes, what is wrong with a fault,
    and the characters themselves otherwise. -/
def text (token : Token) : String :=
  match token.lexeme with
  | .text value => value
  | .fault fault => fault.message
  | .mark _ | .name _ | .keyword _ | .operator _ | .number _ => token.raw

/-- The token with another span. -/
def mapSpan (f : Span → Span) (token : Token) : Token :=
  { token with span := f token.span }

@[simp] theorem lexeme_mapSpan (f : Span → Span) (token : Token) :
    (token.mapSpan f).lexeme = token.lexeme := rfl

@[simp] theorem raw_mapSpan (f : Span → Span) (token : Token) :
    (token.mapSpan f).raw = token.raw := rfl

@[simp] theorem newlineBefore_mapSpan (f : Span → Span) (token : Token) :
    (token.mapSpan f).newlineBefore = token.newlineBefore := rfl

@[simp] theorem span_mapSpan (f : Span → Span) (token : Token) :
    (token.mapSpan f).span = f token.span := rfl

end Token

end TemplateExpr
