/-
  The number that belongs to a token, and the text of a token in messages.
-/
import TemplateExpr.Token.Basic
import TemplateExpr.Decimal.Notation
import TemplateExpr.Text.Quoted

namespace TemplateExpr.Token

/-- The value of a number, the code point of a mark, and zero for all else. -/
def value (token : Token) : Float :=
  match token.lexeme with
  | .number value => value
  | .mark c => Float.ofNat c.toNat
  | .name _ | .keyword _ | .text _ | .operator _ | .fault _ => Float.ofNat 0

/-- Equally near decimals go up, nothing follows a whole number, and there is never an
    exponent. -/
def numberFormat : Decimal.Notation where
  tie := .up
  positional := fun _ => true
  wholeEnd := ""
  infinity := "inf"
  notANumber := "NaN"

/-- Numbers by their value, text literals in quotes, and all else as it is. -/
def render (token : Token) : String :=
  match token.lexeme with
  | .number value => numberFormat.write value
  | .text value => Text.quoted value
  | .mark _ | .name _ | .keyword _ | .operator _ | .fault _ => token.text

end TemplateExpr.Token
