/-
  Functions: their parameters, their bodies, and the test that tells an arrow function from an
  expression.
-/
import TemplateExpr.Production.Rules
import TemplateExpr.Production.Series

namespace TemplateExpr.Production
open Source (Span)

/-- A parameter, perhaps with its default value. -/
def param (rules : Rules) : Production Param := fun i =>
  match i.takeName? with
  | none => .error i.refusal
  | some (id, i) =>
    if i.atOperator "=" then do
      let (value, i) ← rules.assignment i.skip
      .ok (.withDefault id value (id.span.to value.span), i)
    else .ok (.plain id, i)

/-- Parameters between parentheses. -/
def params (rules : Rules) : Production (List Param) :=
  enclosed (param rules) '(' ')'

/-- Statements up to the closing brace. -/
def blockStatements (statement : Production Statement) : Nat → Production (List Statement)
  | 0, _ => .error .exhausted
  | bound + 1, i =>
    if i.atMark '}' then .ok ([], i.skip)
    else if i.rest.isEmpty then .error i.refusal
    else if i.atMark ';' then blockStatements statement bound i.skip
    else do
      let (first, i) ← statement i
      let (others, i) ← blockStatements statement bound i
      .ok (first :: others, i)

/-- Statements between braces. -/
def block (rules : Rules) : Production Body := fun i => do
  let start := i.here
  let i ← i.expectMark '{'
  let (statements, i) ← blockStatements rules.statement (i.left + 1) i
  .ok (.block statements (i.spanFrom start), i)

/-- A function that begins with its keyword, which comes next. A declaration needs a name. -/
def function (rules : Rules) (declaration : Bool) : Production Lambda := fun i => do
  let start := i.here
  let i := i.skip
  let (id, i) := match i.takeName? with
    | some (id, i) => (some id, i)
    | none => (none, i)
  if declaration && id.isNone then .error i.refusal
  else
    let (params, i) ← params rules i
    let (body, i) ← block rules i
    .ok (⟨id, params, body, i.spanFrom start⟩, i)

/-- The parenthesis that closes the `depth` open ones is followed by `=>`. -/
def closesBeforeArrow : Nat → List Token → Bool
  | _, [] => false
  | depth, token :: rest =>
    if token.lexeme.isMark '(' then closesBeforeArrow (depth + 1) rest
    else if token.lexeme.isMark ')' then
      if depth ≤ 1 then rest.head?.any (·.lexeme.isOperator "=>")
      else closesBeforeArrow (depth - 1) rest
    else closesBeforeArrow depth rest

/-- An arrow function comes next: a name and `=>`, or a parenthesis whose partner is followed
    by `=>`. -/
def atArrow (i : Input) : Bool :=
  match i.rest with
  | [] => false
  | token :: rest =>
    match token.lexeme with
    | .name _ => rest.head?.any (·.lexeme.isOperator "=>")
    | .mark '(' => closesBeforeArrow 1 rest
    | _ => false

/-- The parameters of an arrow function: a list, or a single name. -/
def arrowParams (rules : Rules) : Production (List Param) := fun i =>
  if i.atMark '(' then params rules i
  else match i.takeName? with
    | some (id, i) => .ok ([.plain id], i)
    | none => .error i.refusal

/-- The body of an arrow function. -/
def arrowBody (rules : Rules) : Production Body := fun i =>
  if i.atMark '{' then block rules i
  else do
    let (value, i) ← rules.assignment i
    .ok (.expression value, i)

/-- Parameters, `=>` and a body. -/
def arrow (rules : Rules) : Production Expr := fun i => do
  let start := i.here
  let (params, i) ← arrowParams rules i
  let i ← i.expectOperator "=>"
  let (body, i) ← arrowBody rules i
  .ok (.arrow ⟨none, params, body, i.spanFrom start⟩, i)

end TemplateExpr.Production
