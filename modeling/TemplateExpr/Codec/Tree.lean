/-
  Syntax trees as JSON. Each node names its kind in the entry `type`; a number that is not
  finite has no JSON form, and null stands for it.
-/
import TemplateExpr.Codec.Source
import TemplateExpr.Syntax.Tree

namespace TemplateExpr
open Source (Span)

/-- The entries of a node: its kind, its parts, and its span. -/
def node (kind : String) (parts : List (String × Json)) (span : Span) : Json :=
  .object (("type", .text kind) :: (parts ++ [("span", span.toJson)]))

def LiteralValue.toJson : LiteralValue → Json
  | null => .null
  | boolean value => .boolean value
  | number value => if value.isFinite then .float value else .null
  | text value => .text value

/-- The entries of an identifier. -/
def Identifier.entries (id : Identifier) : List (String × Json) :=
  ("name", .text id.name) ::
    ((match id.context with
      | some context => [("context", .text context.word)]
      | none => []) ++ [("span", id.span.toJson)])

def Identifier.toJson (id : Identifier) : Json :=
  .object id.entries

mutual

def Expr.toJson : Expr → Json
  | .identifier id => .object (("type", .text "Identifier") :: id.entries)
  | .literal value raw span =>
    node "Literal" [("value", value.toJson), ("raw", .text raw)] span
  | .this span => node "ThisExpression" [] span
  | .array elements span =>
    node "ArrayExpression" [("elements", .array (jsonOfList elements))] span
  | .object properties span =>
    node "ObjectExpression" [("properties", .array (jsonOfProperties properties))] span
  | .member object property computed optional span =>
    node "MemberExpression"
      [("object", object.toJson), ("property", property.toJson),
       ("computed", .boolean computed), ("optional", .boolean optional)] span
  | .call callee arguments optional span =>
    node "CallExpression"
      [("callee", callee.toJson), ("arguments", .array (jsonOfList arguments)),
       ("optional", .boolean optional)] span
  | .unary op argument span =>
    node "UnaryExpression" [("operator", .text op), ("argument", argument.toJson)] span
  | .update op leading argument span =>
    node "UpdateExpression"
      [("operator", .text op), ("prefix", .boolean leading), ("argument", argument.toJson)] span
  | .binary op left right span =>
    node "BinaryExpression"
      [("operator", .text op), ("left", left.toJson), ("right", right.toJson)] span
  | .logical op left right span =>
    node "LogicalExpression"
      [("operator", .text op), ("left", left.toJson), ("right", right.toJson)] span
  | .conditional test consequent alternate span =>
    node "ConditionalExpression"
      [("test", test.toJson), ("consequent", consequent.toJson),
       ("alternate", alternate.toJson)] span
  | .assignment op left right span =>
    node "AssignmentExpression"
      [("operator", .text op), ("left", left.toJson), ("right", right.toJson)] span
  | .sequence expressions span =>
    node "SequenceExpression" [("expressions", .array (jsonOfList expressions))] span
  | .arrow lambda =>
    .object (("type", .text "ArrowFunctionExpression") :: lambda.entries)
  | .function lambda =>
    .object (("type", .text "FunctionExpression") :: lambda.entries)

def jsonOfList : List Expr → List Json
  | [] => []
  | e :: es => e.toJson :: jsonOfList es

def Property.toJson : Property → Json
  | ⟨key, value, computed, shorthand, span⟩ =>
    .object
      [("key", key.toJson), ("value", value.toJson), ("computed", .boolean computed),
       ("shorthand", .boolean shorthand), ("span", span.toJson)]

def jsonOfProperties : List Property → List Json
  | [] => []
  | p :: ps => p.toJson :: jsonOfProperties ps

/-- The entries that all kinds of functions share. -/
def Lambda.entries : Lambda → List (String × Json)
  | ⟨id, params, body, span⟩ =>
    (match id with
      | some id => [("id", id.toJson)]
      | none => []) ++
    [("params", .array (jsonOfParams params)), ("body", body.toJson), ("span", span.toJson)]

def Param.toJson : Param → Json
  | .plain id => .object (("type", .text "Identifier") :: id.entries)
  | .withDefault id value span =>
    node "AssignmentPattern" [("left", id.toJson), ("right", value.toJson)] span

def jsonOfParams : List Param → List Json
  | [] => []
  | p :: ps => p.toJson :: jsonOfParams ps

def Body.toJson : Body → Json
  | .expression value => value.toJson
  | .block statements span =>
    .object [("body", .array (jsonOfStatements statements)), ("span", span.toJson)]

def Statement.toJson : Statement → Json
  | .expression value span => node "ExpressionStatement" [("expression", value.toJson)] span
  | .return none span => node "ReturnStatement" [("argument", .null)] span
  | .return (some argument) span =>
    node "ReturnStatement" [("argument", argument.toJson)] span
  | .declaration lambda => .object (("type", .text "FunctionDeclaration") :: lambda.entries)

def jsonOfStatements : List Statement → List Json
  | [] => []
  | s :: ss => s.toJson :: jsonOfStatements ss

end

def Program.toJson (program : Program) : Json :=
  .object
    ([("type", .text "Program"), ("body", .array (jsonOfStatements program.body)),
      ("span", program.span.toJson)] ++
      match program.url with
      | some url => [("source_file", .text url)]
      | none => [])

end TemplateExpr
