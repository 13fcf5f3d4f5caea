/-
  The productions that others recurse into. Each is reached again only behind at least one
  token, so a bound on the depth by the number of tokens is enough.
-/
import TemplateExpr.Production.Input

namespace TemplateExpr

/-- The productions of the nested parts of a tree. -/
structure Rules where
  /-- An expression without a comma at its top. -/
  assignment : Production Expr
  /-- The right operand of `**`. -/
  power : Production Expr
  /-- The operand of a prefix operator. -/
  prefixed : Production Expr
  /-- A statement of a function body. -/
  statement : Production Statement

/-- No production applies. -/
def Rules.exhausted : Rules :=
  ⟨fun _ => .error .exhausted, fun _ => .error .exhausted, fun _ => .error .exhausted,
    fun _ => .error .exhausted⟩

end TemplateExpr
