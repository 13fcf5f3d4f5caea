/-
  The tokens of a text. A fault is the last token: behind it nothing is read.
-/
import TemplateExpr.Token.Lexeme
import TemplateExpr.Token.Trivia

namespace TemplateExpr.Token
open Source

/-- The tokens of `cs`, when the cursor stands before it. -/
def ofTextFrom (g : Grammar) (cursor : Cursor) (cs : List Char) : List Token :=
  let trivia := Trivia.ofText cs
  let start := cursor.past (cs.take trivia.length)
  match _h : cs.drop trivia.length with
  | [] => []
  | c :: rest =>
    if trivia.openComment then
      [⟨.fault .openComment, String.ofList (c :: rest), false,
        ⟨start.place, (start.past (c :: rest)).place⟩⟩]
    else
      let found := Lexeme.read g c rest
      let raw := c :: rest.take found.2
      let stop := start.past raw
      let token : Token :=
        ⟨found.1, String.ofList raw, trivia.newline, ⟨start.place, stop.place⟩⟩
      if found.1.isFault then [token]
      else token :: ofTextFrom g stop (rest.drop found.2)
termination_by cs.length
decreasing_by
  have := congrArg List.length _h
  simp only [List.length_drop, List.length_cons] at this ⊢
  omega

/-- The tokens of a text under a grammar. -/
def ofText (g : Grammar) (text : List Char) : List Token :=
  ofTextFrom g Cursor.origin text

end TemplateExpr.Token
