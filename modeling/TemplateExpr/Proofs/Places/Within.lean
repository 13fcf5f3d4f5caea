/-
  A text within a document is the text by itself, moved to where it begins there.

  * `Token.ofTextWithin_some`: its tokens.
  * `Program.ofText_within`: its program, or the error.
-/
import TemplateExpr.Proofs.Places.Natural
import TemplateExpr.Syntax.OfText

namespace TemplateExpr
open Source Production

def SyntaxError.relocate (f : Place → Place) (e : SyntaxError) : SyntaxError :=
  { e with place := f e.place }

/-- The answer with its places replaced, those of the result or that of the error. -/
def relocateAnswer {α : Type} (relocate : (Place → Place) → α → α) (f : Place → Place) :
    Except SyntaxError α → Except SyntaxError α
  | .ok a => .ok (relocate f a)
  | .error e => .error (e.relocate f)

theorem Failure.toError_relocate (f : Place → Place) (failure : Failure) (stop : Span)
    (url : Option String) : (failure.relocate f).toError (stop.relocate f) url =
      (failure.toError stop url).relocate f := by
  cases failure <;> rfl

/-- The tokens of a text within a document are those of the text, moved. -/
theorem Token.ofTextWithin_some (g : Grammar) (origin : Origin) (text : List Char) :
    ofTextWithin g (some origin) text =
      (ofTextWithin g none text).map (·.relocate origin.movePlace) := by
  rw [ofTextWithin, ofTextWithin, List.map_map]
  rfl

theorem Program.ofText_within (g : Grammar) (origin : Origin) (url : Option String)
    (text : List Char) : Program.ofText g (some origin) url text =
      relocateAnswer relocate origin.movePlace (Program.ofText g none url text) := by
  have hi : Input.ofTokens (Token.ofTextWithin g (some origin) text)
      ((Span.at (Place.endOf text)).within (some origin)) =
      (Input.ofTokens (Token.ofTextWithin g none text)
        ((Span.at (Place.endOf text)).within none)).relocate origin.movePlace := by
    rw [Token.ofTextWithin_some]
    rfl
  unfold Program.ofText
  dsimp only
  rw [hi, natural_program]
  cases program (Input.ofTokens (Token.ofTextWithin g none text)
      ((Span.at (Place.endOf text)).within none)) with
  | error failure =>
    exact congrArg Except.error (failure.toError_relocate origin.movePlace _ url)
  | ok answer =>
    obtain ⟨body, rest⟩ := answer
    rw [outcome_ok]
    exact congrArg (fun body => Except.ok (⟨body, _, url⟩ : Program))
      (relabelStatements_eq _ body).symm

end TemplateExpr
