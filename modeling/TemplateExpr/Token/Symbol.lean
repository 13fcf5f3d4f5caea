/-
  The fixed spellings of the language: its reserved words, its separators and brackets, and
  its operators, of which the longest that fits is taken.
-/
import TemplateExpr.Token.Basic

namespace TemplateExpr.Symbol
open Text

/-- The reserved words. -/
def keywords : List String :=
  ["true", "false", "null", "this", "typeof", "void", "in", "instanceof", "function", "return"]

/-- The separators and brackets. -/
def marks : List Char :=
  ['.', '(', ')', '[', ']', '{', '}', ',', ':', ';']

/-- The operators, each before those that it begins with. -/
def operators : List String :=
  [">>>=", "===", "!==", "**=", "<<=", ">>=", ">>>", "&&=", "||=", "??=", "=>", "==", "!=",
   "<=", ">=", "&&", "||", "??", "?.", "++", "--", "+=", "-=", "*=", "/=", "%=", "&=", "|=",
   "^=", "**", "<<", ">>", "+", "-", "*", "/", "%", "<", ">", "=", "!", "~", "&", "|", "^", "?"]

/-- A name without sigil, unless it is reserved. -/
def word (text : String) : Lexeme :=
  if keywords.contains text then .keyword text else .name text

/-- The longest operator at the front of a text. A digit behind `?.` belongs to a number, so
    there the operator is `?`. -/
def operatorAt? (cs : List Char) : Option String :=
  (operators.find? fun op => op.toList.isPrefixOf cs).map fun op =>
    if op = "?." ∧ (cs.drop 2).head?.any isDigit then "?" else op

end TemplateExpr.Symbol
