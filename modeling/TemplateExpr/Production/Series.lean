/-
  Series of like parts: items with commas between two marks, and items behind commas.
-/
import TemplateExpr.Production.Input

namespace TemplateExpr.Production

/-- Items up to the closing mark, with a comma behind each but the last, where it may be
    missing. Every item has a token, so `bound` is never used up if it is above the number of
    tokens. -/
def items {α : Type} (item : Production α) (close : Char) : Nat → Production (List α)
  | 0, _ => .error .exhausted
  | bound + 1, i =>
    if i.atMark close then .ok ([], i.skip)
    else do
      let (first, i) ← item i
      if i.atMark ',' then
        let (others, i) ← items item close bound i.skip
        .ok (first :: others, i)
      else
        let i ← i.expectMark close
        .ok ([first], i)

/-- Items between an opening and a closing mark. -/
def enclosed {α : Type} (item : Production α) (opening close : Char) :
    Production (List α) := fun i => do
  let i ← i.expectMark opening
  items item close (i.left + 1) i

/-- Items, each behind a comma, as long as there is a comma. -/
def others {α : Type} (item : Production α) : Nat → Production (List α)
  | 0, _ => .error .exhausted
  | bound + 1, i =>
    if i.atMark ',' then do
      let (next, i) ← item i.skip
      let (more, i) ← others item bound i
      .ok (next :: more, i)
    else .ok ([], i)

/-- An expression, or several with commas between them. -/
def sequence (item : Production Expr) : Production Expr := fun i => do
  let (first, i) ← item i
  let (more, i) ← others item (i.left + 1) i
  match more with
  | [] => .ok (first, i)
  | _ :: _ => .ok (.sequence (first :: more) (i.spanFrom first.span), i)

end TemplateExpr.Production
