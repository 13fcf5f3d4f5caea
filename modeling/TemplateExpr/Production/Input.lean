/-
  The tokens that a production has before it, and what it answers.

  A production reads a part of the input and answers a part of the tree with the input behind
  it, or the failure that ends the parse. There is no backtracking: a failure is final.
-/
import TemplateExpr.SyntaxError
import TemplateExpr.Syntax.Tree

namespace TemplateExpr
open Source (Span Place)

/-- The tokens still to be read. -/
structure Input where
  /-- The span of the token read last; before the first token, the end of the text. -/
  last : Span
  rest : List Token
  /-- The end of the text. -/
  stop : Span
deriving Repr, Inhabited

/-- Why a production does not apply. -/
inductive Failure where
  | fault (fault : SyntaxFault) (place : Place)
  /-- The bound on the depth of the recursion is used up. A text never gets here
      when the bound is the number of its tokens. -/
  | exhausted
deriving DecidableEq, Repr, Inhabited

/-- A production of the grammar. -/
abbrev Production (α : Type) := Input → Except Failure (α × Input)

namespace Input

/-- The input at the start of a text with these tokens. -/
def ofTokens (tokens : List Token) (stop : Span) : Input :=
  ⟨stop, tokens, stop⟩

/-- How many tokens are left. -/
def left (i : Input) : Nat :=
  i.rest.length

/-- The lexeme of the next token. -/
def lexeme? (i : Input) : Option Lexeme :=
  i.rest.head?.map (·.lexeme)

/-- The span of the next token, or the end of the text. -/
def here (i : Input) : Span :=
  match i.rest with
  | [] => i.stop
  | token :: _ => token.span

/-- The input behind the next token. -/
def skip (i : Input) : Input :=
  match i.rest with
  | [] => i
  | token :: rest => ⟨token.span, rest, i.stop⟩

/-- The span from the start of `start` to the end of the token read last. -/
def spanFrom (i : Input) (start : Span) : Span :=
  start.to i.last

def atMark (i : Input) (c : Char) : Bool :=
  i.lexeme?.any (·.isMark c)

def atOperator (i : Input) (symbol : String) : Bool :=
  i.lexeme?.any (·.isOperator symbol)

def atKeyword (i : Input) (word : String) : Bool :=
  i.lexeme?.any (·.isKeyword word)

/-- A line ends before the next token. -/
def atNewline (i : Input) : Bool :=
  i.rest.head?.any (·.newlineBefore)

/-- The next token is refused: what is wrong with it, if it is a fault of its own. -/
def refusal (i : Input) : Failure :=
  match i.rest with
  | [] => .fault .unexpected i.stop.start
  | token :: _ =>
    match token.lexeme with
    | .fault fault => .fault (.lexical fault) token.span.start
    | .mark _ | .name _ | .keyword _ | .text _ | .operator _ | .number _ =>
      .fault .unexpected token.span.start

/-- The input behind the given mark, which has to come next. -/
def expectMark (i : Input) (c : Char) : Except Failure Input :=
  if i.atMark c then .ok i.skip else .error i.refusal

/-- The input behind the given operator, which has to come next. -/
def expectOperator (i : Input) (symbol : String) : Except Failure Input :=
  if i.atOperator symbol then .ok i.skip else .error i.refusal

/-- The name that comes next, and the input behind it. -/
def takeName? (i : Input) : Option (Identifier × Input) :=
  match i.rest with
  | ⟨.name text, _, _, span⟩ :: _ => some (⟨text, none, span⟩, i.skip)
  | _ => none

theorem left_skip (i : Input) : i.skip.left = i.left - 1 := by
  cases i with
  | mk last rest stop => cases rest <;> rfl

end Input

end TemplateExpr
