/-
  Statements, and the recursion of the grammar: `rules n` are the productions for inputs of
  fewer than `n` tokens.
-/
import TemplateExpr.Production.Operation

namespace TemplateExpr.Production

/-- A statement ends with `;`, before a brace that closes the body, at the end of the text, or
    before a line end. -/
def statementEnd (inBody : Bool) (i : Input) : Except Failure Input :=
  if i.atMark ';' then .ok i.skip
  else if i.rest.isEmpty || (inBody && i.atMark '}') || i.atNewline then .ok i
  else .error i.refusal

/-- An expression as a statement. -/
def expressionStatement (rules : Rules) (inBody : Bool) : Production Statement := fun i => do
  let start := i.here
  let (value, i) ← sequence (assignment rules) i
  let i ← statementEnd inBody i
  .ok (.expression value (i.spanFrom start), i)

/-- `return`, with a value if one follows on the line. -/
def returnStatement (rules : Rules) (inBody : Bool) : Production Statement := fun i => do
  let start := i.here
  if !inBody then .error (.fault .strayReturn start.start)
  else
    let i := i.skip
    if i.rest.isEmpty || i.atMark ';' || i.atMark '}' || i.atNewline then
      let i ← statementEnd inBody i
      .ok (.return none (i.spanFrom start), i)
    else
      let (value, i) ← sequence rules.assignment i
      let i ← statementEnd inBody i
      .ok (.return (some value) (i.spanFrom start), i)

/-- A declaration, a `return`, or an expression. -/
def statement (rules : Rules) (inBody : Bool) : Production Statement := fun i =>
  if i.atKeyword "function" then do
    let (lambda, i) ← function rules true i
    .ok (.declaration lambda, i)
  else if i.atKeyword "return" then returnStatement rules inBody i
  else expressionStatement rules inBody i

/-- The productions that may recurse once more than `rules`. -/
def deeper (rules : Rules) : Rules where
  assignment := assignment rules
  power := power rules
  prefixed := prefixed rules
  statement := statement rules true

/-- The productions that may recurse `n` deep. -/
def rules : Nat → Rules
  | 0 => Rules.exhausted
  | n + 1 => deeper (rules n)

/-- Statements up to the end of the text. -/
def programStatements (statement : Production Statement) : Nat → Production (List Statement)
  | 0, _ => .error .exhausted
  | bound + 1, i =>
    if i.rest.isEmpty then .ok ([], i)
    else if i.atMark ';' then programStatements statement bound i.skip
    else do
      let (first, i) ← statement i
      let (others, i) ← programStatements statement bound i
      .ok (first :: others, i)

/-- All statements of the input. -/
def program : Production (List Statement) := fun i =>
  programStatements (statement (rules i.left) false) (i.left + 1) i

end TemplateExpr.Production
