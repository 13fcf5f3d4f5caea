/-
  Operands: literals, names, arrays, objects, parenthesised expressions, and the members and
  calls behind them.
-/
import TemplateExpr.Production.Rules
import TemplateExpr.Production.Series
import TemplateExpr.Production.Function

namespace TemplateExpr.Production

/-- The name of a member; reserved words are allowed. -/
def memberName : Production Expr := fun i =>
  match i.rest with
  | ⟨.name text, _, _, span⟩ :: _ | ⟨.keyword text, _, _, span⟩ :: _ =>
    .ok (.identifier ⟨text, none, span⟩, i.skip)
  | _ => .error i.refusal

/-- The key of an entry that is not computed, and whether it may stand alone. -/
def plainKey? (token : Token) : Option (Expr × Bool) :=
  match token.lexeme with
  | .name text => some (.identifier ⟨text, none, token.span⟩, true)
  | .keyword text => some (.identifier ⟨text, none, token.span⟩, false)
  | .text value => some (.literal (.text value) token.raw token.span, false)
  | .number value => some (.literal (.number value) token.raw token.span, false)
  | .mark _ | .operator _ | .fault _ => none

/-- An entry of an object: `[key]: value`, `key: value`, or a name alone. -/
def property (rules : Rules) : Production Property := fun i => do
  let start := i.here
  if i.atMark '[' then
    let (key, i) ← rules.assignment i.skip
    let i ← i.expectMark ']'
    let i ← i.expectMark ':'
    let (value, i) ← rules.assignment i
    .ok (⟨key, value, true, false, i.spanFrom start⟩, i)
  else
    match i.rest.head?.bind plainKey? with
    | none => .error i.refusal
    | some (key, alone) =>
      let i := i.skip
      if i.atMark ':' then
        let (value, i) ← rules.assignment i.skip
        .ok (⟨key, value, false, false, i.spanFrom start⟩, i)
      else if alone && (i.atMark ',' || i.atMark '}') then
        .ok (⟨key, key, false, true, start⟩, i)
      else .error i.refusal

/-- What a reserved word stands for by itself. -/
def keywordValue? (word : String) (token : Token) : Option Expr :=
  match word with
  | "true" => some (.literal (.boolean true) token.raw token.span)
  | "false" => some (.literal (.boolean false) token.raw token.span)
  | "null" => some (.literal .null token.raw token.span)
  | "this" => some (.this token.span)
  | _ => none

/-- The value that a token is by itself. -/
def atom? (token : Token) : Option Expr :=
  match token.lexeme with
  | .name text => some (.identifier ⟨text, none, token.span⟩)
  | .number value => some (.literal (.number value) token.raw token.span)
  | .text value => some (.literal (.text value) token.raw token.span)
  | .keyword word => keywordValue? word token
  | .mark _ | .operator _ | .fault _ => none

/-- A single value, or an expression between brackets. Parentheses leave no trace in the
    tree. -/
def primary (rules : Rules) : Production Expr := fun i =>
  match i.rest.head?.bind atom? with
  | some e => .ok (e, i.skip)
  | none =>
    if i.atKeyword "function" then do
      let (lambda, i) ← function rules false i
      .ok (.function lambda, i)
    else if i.atMark '(' then do
      let (e, i) ← sequence rules.assignment i.skip
      let i ← i.expectMark ')'
      .ok (e, i)
    else if i.atMark '[' then do
      let start := i.here
      let (elements, i) ← enclosed rules.assignment '[' ']' i
      .ok (.array elements (i.spanFrom start), i)
    else if i.atMark '{' then do
      let start := i.here
      let (properties, i) ← enclosed (property rules) '{' '}' i
      .ok (.object properties (i.spanFrom start), i)
    else .error i.refusal

/-- A member in square brackets, behind the opening bracket. -/
def computedMember (rules : Rules) (object : Expr) (optional : Bool) : Production Expr :=
  fun i => do
    let (property, i) ← sequence rules.assignment i
    let i ← i.expectMark ']'
    .ok (.member object property true optional (i.spanFrom object.span), i)

/-- A member by its name. -/
def namedMember (object : Expr) (optional : Bool) : Production Expr := fun i => do
  let (property, i) ← memberName i
  .ok (.member object property false optional (i.spanFrom object.span), i)

/-- A call, before the opening parenthesis. -/
def call (rules : Rules) (callee : Expr) (optional : Bool) : Production Expr := fun i => do
  let (arguments, i) ← enclosed rules.assignment '(' ')' i
  .ok (.call callee arguments optional (i.spanFrom callee.span), i)

/-- Some link of a chain comes next. -/
def atLink (i : Input) : Bool :=
  i.atMark '.' || i.atOperator "?." || i.atMark '[' || i.atMark '('

/-- One member or call behind an operand. -/
def link (rules : Rules) (operand : Expr) : Production Expr := fun i =>
  if i.atMark '.' then namedMember operand false i.skip
  else if i.atOperator "?." then
    if i.skip.atMark '(' then call rules operand true i.skip
    else if i.skip.atMark '[' then computedMember rules operand true i.skip.skip
    else namedMember operand true i.skip
  else if i.atMark '[' then computedMember rules operand false i.skip
  else call rules operand false i

/-- Members and calls behind an operand, as long as there are any. -/
def links (rules : Rules) : Nat → Expr → Production Expr
  | 0, _, _ => .error .exhausted
  | bound + 1, operand, i =>
    if atLink i then do
      let (operand, i) ← link rules operand i
      links rules bound operand i
    else .ok (operand, i)

/-- A single value with the members and calls behind it. -/
def chain (rules : Rules) : Production Expr := fun i => do
  let (operand, i) ← primary rules i
  links rules (i.left + 1) operand i

end TemplateExpr.Production
