/-
  Operations: prefix and postfix operators, the ladder of binary operators, conditionals and
  assignments.
-/
import TemplateExpr.Production.Operand
import TemplateExpr.Syntax.Operator

namespace TemplateExpr.Production
open Operator (Level)

/-- Only what can be assigned to may be the target of an assignment or an update. -/
def expectTarget (target : Expr) : Except Failure Unit :=
  if target.isTarget then .ok () else .error (.fault .notAssignable target.span.start)

/-- The operator that comes next, if it is one of `operators`. -/
def operatorOf? (operators : List String) (i : Input) : Option String :=
  match i.lexeme? with
  | some (.operator op) => if operators.contains op then some op else none
  | _ => none

/-- The operator or reserved word that comes next, if it is one of `operators`. -/
def binaryOf? (operators : List String) (i : Input) : Option String :=
  match i.lexeme? with
  | some (.operator op) | some (.keyword op) => if operators.contains op then some op else none
  | _ => none

/-- The unary operator that comes next. -/
def unaryOf? (i : Input) : Option String :=
  match i.lexeme? with
  | some (.operator op) => if Operator.unary.contains op then some op else none
  | some (.keyword word) => if Operator.unaryWords.contains word then some word else none
  | _ => none

/-- An operand, perhaps with `++` or `--` behind it on the same line. -/
def postfixed (rules : Rules) : Production Expr := fun i => do
  let (argument, i) ← chain rules i
  match operatorOf? Operator.update i with
  | some op =>
    if i.atNewline then .ok (argument, i)
    else
      expectTarget argument
      let i := i.skip
      .ok (.update op false argument (i.spanFrom argument.span), i)
  | none => .ok (argument, i)

/-- Prefix operators and their operand. -/
def prefixed (rules : Rules) : Production Expr := fun i => do
  let start := i.here
  match operatorOf? Operator.update i with
  | some op =>
    let (argument, i) ← rules.prefixed i.skip
    expectTarget argument
    .ok (.update op true argument (i.spanFrom start), i)
  | none =>
    match unaryOf? i with
    | some op =>
      let (argument, i) ← rules.prefixed i.skip
      .ok (.unary op argument (i.spanFrom start), i)
    | none => postfixed rules i

/-- A power. -/
def power (rules : Rules) : Production Expr := fun i => do
  let (left, i) ← prefixed rules i
  if i.atOperator Operator.power then
    let (right, i) ← rules.power i.skip
    .ok (.binary Operator.power left right (left.span.to right.span), i)
  else .ok (left, i)

/-- The tree of a binary operation of the level. -/
def binaryNode (level : Level) (op : String) (left right : Expr) : Expr :=
  let span := left.span.to right.span
  if level.logical then .logical op left right span else .binary op left right span

/-- The operations of one level behind their first operand, grouped to the left. -/
def climb (level : Level) (operand : Production Expr) : Nat → Expr → Production Expr
  | 0, _, _ => .error .exhausted
  | bound + 1, left, i =>
    match binaryOf? level.operators i with
    | some op => do
      let (right, i) ← operand i.skip
      climb level operand bound (binaryNode level op left right) i
    | none => .ok (left, i)

/-- The operations of the given levels over operands that bind tighter than all of them. -/
def ladder (operand : Production Expr) : List Level → Production Expr
  | [], i => operand i
  | level :: tighter, i => do
    let (left, i) ← ladder operand tighter i
    climb level (ladder operand tighter) (i.left + 1) left i

/-- A binary operation of any level. -/
def operation (rules : Rules) : Production Expr :=
  ladder (power rules) Operator.levels

/-- An operation, or a choice by `?` and `:`. -/
def conditional (rules : Rules) : Production Expr := fun i => do
  let (test, i) ← operation rules i
  if i.atOperator "?" then
    let (consequent, i) ← rules.assignment i.skip
    let i ← i.expectMark ':'
    let (alternate, i) ← rules.assignment i
    .ok (.conditional test consequent alternate (test.span.to alternate.span), i)
  else .ok (test, i)

/-- An arrow function, a conditional, or an assignment to one. -/
def assignment (rules : Rules) : Production Expr := fun i =>
  if atArrow i then arrow rules i
  else do
    let (left, i) ← conditional rules i
    match operatorOf? Operator.assignment i with
    | some op =>
      expectTarget left
      let (right, i) ← rules.assignment i.skip
      .ok (.assignment op left right (left.span.to right.span), i)
    | none => .ok (left, i)

end TemplateExpr.Production
