/-
  Syntax trees read from JSON. Every node has to name its kind and to have all its parts;
  entries that are not known are passed over.

  The readers of the parts are written over the readers of whole expressions and statements,
  which are then applied as deep as the value is nested.
-/
import TemplateExpr.Codec.Tree

namespace TemplateExpr
open Json
open Source (Span)

def LiteralValue.ofJson? : Json → Option LiteralValue
  | .null => some .null
  | .boolean value => some (.boolean value)
  | .whole value => some (.number (Float.ofInt value))
  | .float value => some (.number value)
  | .text value => some (.text value)
  | .array _ | .object _ => none

def Context.ofJson? (json : Json) : Option Context :=
  json.text?.bind Context.ofWord?

def Identifier.ofJson? (json : Json) : Option Identifier := do
  let name ← json.required? "name" text?
  let context ← json.optional? "context" Context.ofJson?
  let span ← json.required? "span" Span.ofJson?
  some ⟨name, context, span⟩

/-- The readers of nested values. -/
structure TreeReaders where
  expr : Json → Option Expr
  statement : Json → Option Statement

namespace TreeReaders

def property? (r : TreeReaders) (json : Json) : Option Property := do
  let key ← json.required? "key" r.expr
  let value ← json.required? "value" r.expr
  let computed ← json.required? "computed" boolean?
  let shorthand ← json.required? "shorthand" boolean?
  let span ← json.required? "span" Span.ofJson?
  some ⟨key, value, computed, shorthand, span⟩

def param? (r : TreeReaders) (json : Json) : Option Param := do
  match ← json.required? "type" text? with
  | "Identifier" => (Identifier.ofJson? json).map .plain
  | "AssignmentPattern" =>
    let id ← json.required? "left" Identifier.ofJson?
    let value ← json.required? "right" r.expr
    let span ← json.required? "span" Span.ofJson?
    some (.withDefault id value span)
  | _ => none

def block? (r : TreeReaders) (json : Json) : Option Body := do
  let statements ← json.required? "body" (listOf? r.statement)
  let span ← json.required? "span" Span.ofJson?
  some (.block statements span)

/-- A body is read as an expression if it is one, and as a block otherwise. -/
def body? (r : TreeReaders) (json : Json) : Option Body :=
  match r.expr json with
  | some value => some (.expression value)
  | none => r.block? json

def lambda? (r : TreeReaders) (json : Json) : Option Lambda := do
  let id ← json.optional? "id" Identifier.ofJson?
  let params ← json.required? "params" (listOf? r.param?)
  let body ← json.required? "body" r.body?
  let span ← json.required? "span" Span.ofJson?
  some ⟨id, params, body, span⟩

/-- An operator with two operands. -/
def operation? (r : TreeReaders) (make : String → Expr → Expr → Span → Expr) (json : Json) :
    Option Expr := do
  let op ← json.required? "operator" text?
  let left ← json.required? "left" r.expr
  let right ← json.required? "right" r.expr
  let span ← json.required? "span" Span.ofJson?
  some (make op left right span)

def expr? (r : TreeReaders) (json : Json) : Option Expr := do
  match ← json.required? "type" text? with
  | "Identifier" => (Identifier.ofJson? json).map .identifier
  | "Literal" =>
    let value ← json.required? "value" LiteralValue.ofJson?
    let raw ← json.required? "raw" text?
    let span ← json.required? "span" Span.ofJson?
    some (.literal value raw span)
  | "ThisExpression" => (json.required? "span" Span.ofJson?).map .this
  | "ArrayExpression" =>
    let elements ← json.required? "elements" (listOf? r.expr)
    let span ← json.required? "span" Span.ofJson?
    some (.array elements span)
  | "ObjectExpression" =>
    let properties ← json.required? "properties" (listOf? r.property?)
    let span ← json.required? "span" Span.ofJson?
    some (.object properties span)
  | "MemberExpression" =>
    let object ← json.required? "object" r.expr
    let property ← json.required? "property" r.expr
    let computed ← json.required? "computed" boolean?
    let optional ← json.required? "optional" boolean?
    let span ← json.required? "span" Span.ofJson?
    some (.member object property computed optional span)
  | "CallExpression" =>
    let callee ← json.required? "callee" r.expr
    let arguments ← json.required? "arguments" (listOf? r.expr)
    let optional ← json.required? "optional" boolean?
    let span ← json.required? "span" Span.ofJson?
    some (.call callee arguments optional span)
  | "UnaryExpression" =>
    let op ← json.required? "operator" text?
    let argument ← json.required? "argument" r.expr
    let span ← json.required? "span" Span.ofJson?
    some (.unary op argument span)
  | "UpdateExpression" =>
    let op ← json.required? "operator" text?
    let leading ← json.required? "prefix" boolean?
    let argument ← json.required? "argument" r.expr
    let span ← json.required? "span" Span.ofJson?
    some (.update op leading argument span)
  | "BinaryExpression" => r.operation? .binary json
  | "LogicalExpression" => r.operation? .logical json
  | "AssignmentExpression" => r.operation? .assignment json
  | "ConditionalExpression" =>
    let test ← json.required? "test" r.expr
    let consequent ← json.required? "consequent" r.expr
    let alternate ← json.required? "alternate" r.expr
    let span ← json.required? "span" Span.ofJson?
    some (.conditional test consequent alternate span)
  | "SequenceExpression" =>
    let expressions ← json.required? "expressions" (listOf? r.expr)
    let span ← json.required? "span" Span.ofJson?
    some (.sequence expressions span)
  | "ArrowFunctionExpression" => (r.lambda? json).map .arrow
  | "FunctionExpression" => (r.lambda? json).map .function
  | _ => none

def statement? (r : TreeReaders) (json : Json) : Option Statement := do
  match ← json.required? "type" text? with
  | "ExpressionStatement" =>
    let value ← json.required? "expression" r.expr
    let span ← json.required? "span" Span.ofJson?
    some (.expression value span)
  | "ReturnStatement" =>
    let argument ← json.optional? "argument" r.expr
    let span ← json.required? "span" Span.ofJson?
    some (.return argument span)
  | "FunctionDeclaration" => (r.lambda? json).map .declaration
  | _ => none

/-- The readers of values nested at most `n` deep. -/
def ofDepth : Nat → TreeReaders
  | 0 => ⟨fun _ => none, fun _ => none⟩
  | n + 1 =>
    let inner := ofDepth n
    ⟨inner.expr?, inner.statement?⟩

end TreeReaders

def Expr.ofJson? (json : Json) : Option Expr :=
  (TreeReaders.ofDepth json.depth).expr json

def Statement.ofJson? (json : Json) : Option Statement :=
  (TreeReaders.ofDepth json.depth).statement json

/-- The kind of the program itself is not looked at. -/
def Program.ofJson? (json : Json) : Option Program := do
  let body ← json.required? "body" (listOf? Statement.ofJson?)
  let span ← json.required? "span" Span.ofJson?
  let url ← json.optional? "source_file" text?
  some ⟨body, span, url⟩

end TemplateExpr
