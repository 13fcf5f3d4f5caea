/-
  The text of a tree, with no more parentheses than the grammar needs. An identifier that was
  classified gets its sigil back.
-/
import TemplateExpr.Syntax.Precedence
import TemplateExpr.Text.Join

namespace TemplateExpr
open Text

/-- The text in parentheses, if need be. -/
def grouped (need : Bool) (text : String) : String :=
  if need then "(" ++ text ++ ")" else text

def inBraces (text : String) : String :=
  "\x7b" ++ text ++ "\x7d"

/-- The text begins with the reserved word of functions, and more follows than a name. -/
def readsAsDeclaration (text : String) : Bool :=
  "function".toList.isPrefixOf text.toList &&
    (text.toList.drop 8).head?.any fun c => !isNamePart c

def Identifier.written (id : Identifier) : String :=
  Context.write id.context id.name

/-- A prefix operator wants a space before its operand if it is a word, or if the two would
    read as `++` or `--`. -/
def wantsSpace (op argument : String) : Bool :=
  op.toList.all isAlphabetic || ((op == "-" || op == "+") && op.toList.isPrefixOf argument.toList)

def writtenUnary (op argument : String) : String :=
  if wantsSpace op argument then op ++ " " ++ argument else op ++ argument

/-- The loosest that the left operand of a binary operator may bind without parentheses. Powers
    group to the right, all else to the left. -/
def leftMinimum (op : String) : Nat :=
  if op = Operator.power then Precedence.ofBinary op + 1 else Precedence.ofBinary op

/-- The loosest that the right operand of a binary operator may bind without parentheses. -/
def rightMinimum (op : String) : Nat :=
  if op = Operator.power then Precedence.ofBinary op else Precedence.ofBinary op + 1

/-- Function expressions are always grouped where they are called or read from. -/
def needsGroupAsCallee : Expr → Bool
  | .function _ => true
  | e => e.precedence < Precedence.call

def Body.isObject : Body → Bool
  | .expression (.object _ _) => true
  | _ => false

mutual

def Expr.written : Expr → String
  | .identifier id => id.written
  | .literal _ raw _ => raw
  | .this _ => "this"
  | .array elements _ => "[" ++ joinWith ", " (writtenList elements) ++ "]"
  | .object properties _ => inBraces (joinWith ", " (writtenProperties properties))
  | .member object property computed optional _ =>
    let before := grouped (needsGroupAsCallee object) object.written
    let name := property.written
    match computed, optional with
    | true, true => before ++ "?.[" ++ name ++ "]"
    | true, false => before ++ "[" ++ name ++ "]"
    | false, true => before ++ "?." ++ name
    | false, false => before ++ "." ++ name
  | .call callee arguments optional _ =>
    grouped (needsGroupAsCallee callee) callee.written ++ (if optional then "?.(" else "(") ++
      joinWith ", " (writtenList arguments) ++ ")"
  | .unary op argument _ =>
    writtenUnary op (grouped (argument.precedence < Precedence.unary) argument.written)
  | .update op leading argument _ =>
    if leading then op ++ grouped (argument.precedence < Precedence.unary) argument.written
    else grouped (argument.precedence < Precedence.call) argument.written ++ op
  | .binary op left right _ | .logical op left right _ =>
    grouped (left.precedence < leftMinimum op) left.written ++ " " ++ op ++ " " ++
      grouped (right.precedence < rightMinimum op) right.written
  | .conditional test consequent alternate _ =>
    grouped (test.precedence < Precedence.conditional + 1) test.written ++ " ? " ++
      grouped (consequent.precedence < Precedence.assignment) consequent.written ++ " : " ++
      grouped (alternate.precedence < Precedence.assignment) alternate.written
  | .assignment op left right _ =>
    grouped (left.precedence < Precedence.postfixed) left.written ++ " " ++ op ++ " " ++
      grouped (right.precedence < Precedence.assignment) right.written
  | .sequence expressions _ => joinWith ", " (writtenList expressions)
  | .arrow ⟨_, params, body, _⟩ =>
    "(" ++ joinWith ", " (writtenParams params) ++ ") => " ++ body.written
  | .function lambda => lambda.written

/-- The texts of the items of a list; a comma inside an item wants parentheses. -/
def writtenList : List Expr → List String
  | [] => []
  | e :: es => grouped (e.precedence < Precedence.assignment) e.written :: writtenList es

def Property.written : Property → String
  | ⟨key, value, computed, shorthand, _⟩ =>
    if shorthand then value.written
    else
      (if computed then "[" ++ grouped (key.precedence < Precedence.assignment) key.written ++ "]"
        else key.written) ++ ": " ++
        grouped (value.precedence < Precedence.assignment) value.written

def writtenProperties : List Property → List String
  | [] => []
  | p :: ps => p.written :: writtenProperties ps

/-- A function behind its keyword. -/
def Lambda.written : Lambda → String
  | ⟨id, params, body, _⟩ =>
    "function" ++ (match id with | some id => " " ++ id.name | none => "") ++ "(" ++
      joinWith ", " (writtenParams params) ++ ") " ++ body.written

def Param.written : Param → String
  | .plain id => id.written
  | .withDefault id value _ =>
    id.written ++ " = " ++ grouped (value.precedence < Precedence.assignment) value.written

def writtenParams : List Param → List String
  | [] => []
  | p :: ps => p.written :: writtenParams ps

/-- An object would read as a block, so it is grouped. -/
def Body.written : Body → String
  | .expression value =>
    grouped ((Body.expression value).isObject || value.precedence < Precedence.assignment)
      value.written
  | .block [] _ => inBraces ""
  | .block (s :: ss) _ => inBraces (" " ++ joinWith "; " (s.written :: writtenStatements ss) ++ " ")

/-- An expression that begins with the reserved word of functions would read as a
    declaration, so it is grouped. -/
def Statement.written : Statement → String
  | .expression value _ => grouped (readsAsDeclaration value.written) value.written
  | .return none _ => "return"
  | .return (some argument) _ => "return " ++ argument.written
  | .declaration lambda => lambda.written

def writtenStatements : List Statement → List String
  | [] => []
  | s :: ss => s.written :: writtenStatements ss

end

/-- The text of a program. -/
def Program.written (program : Program) : String :=
  joinWith "; " (writtenStatements program.body)

end TemplateExpr
