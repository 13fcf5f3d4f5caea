/-
  What can be wrong with an expression or a document, where, and how it is reported.
-/
import TemplateExpr.Token.Basic

namespace TemplateExpr

/-- The reason why a text is refused. -/
inductive SyntaxFault where
  /-- Its characters are no token. -/
  | lexical (fault : LexicalFault)
  /-- A token, or the end of the text, stands where it cannot stand. -/
  | unexpected
  /-- The target of an assignment is neither a name nor a member. -/
  | notAssignable
  /-- A `return` stands outside of every function body. -/
  | strayReturn
  /-- The opening brace of a region has no closing brace. -/
  | openBrace
deriving DecidableEq, Repr, Inhabited

def SyntaxFault.message : SyntaxFault → String
  | lexical fault => fault.message
  | unexpected => "Unexpected token"
  | notAssignable => "Assigning to rvalue"
  | strayReturn => "'return' outside of function"
  | openBrace => "Unable to find matching pair for '\x7b'"

/-- A fault, its place, and the URL of the document if that is known. -/
structure SyntaxError where
  fault : SyntaxFault
  place : Source.Place
  url : Option String
deriving DecidableEq, Repr, Inhabited

def SyntaxError.message (e : SyntaxError) : String :=
  e.fault.message

/-- The message behind the URL, with the position in parentheses. -/
def SyntaxError.render (e : SyntaxError) : String :=
  let text := e.message ++ " (" ++ e.place.position.render ++ ")"
  match e.url with
  | some url => url ++ ": " ++ text
  | none => text

end TemplateExpr
