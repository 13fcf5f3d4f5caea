/-
  The program that a text is, before its names are classified.

  The tokens are moved into the document before they are read, so that every span of the tree
  and every error is in the coordinates of the document.
-/
import TemplateExpr.Token.OfText
import TemplateExpr.Production.Statement

namespace TemplateExpr
open Source

/-- The error that ends a parse. The end of the text stands in for a place that is not known. -/
def Failure.toError (failure : Failure) (stop : Span) (url : Option String) : SyntaxError :=
  match failure with
  | .fault why place => ⟨why, place, url⟩
  | .exhausted => ⟨.unexpected, stop.start, url⟩

/-- The tokens of a text in the coordinates of its document. -/
def Token.ofTextWithin (g : Grammar) (origin : Option Origin) (text : List Char) : List Token :=
  (Token.ofText g text).map (·.mapSpan (·.within origin))

/-- The program that the text is under a grammar. -/
def Program.ofText (g : Grammar) (origin : Option Origin) (url : Option String)
    (text : List Char) : Except SyntaxError Program :=
  let stop := (Span.at (Place.endOf text)).within origin
  let whole := (Span.mk Place.origin (Place.endOf text)).within origin
  match Production.program (Input.ofTokens (Token.ofTextWithin g origin text) stop) with
  | .ok (body, _) => .ok ⟨body, whole, url⟩
  | .error failure => .error (failure.toError stop url)

end TemplateExpr
