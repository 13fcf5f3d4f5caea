/-
  Classification: every identifier that refers to something in the component loses its sigil
  and gets the context that it is looked up in. The names of the language, the names that
  functions bind, and the names of members and of assigned variables stay as they are.

  One walk over the tree does this. It keeps the chain of nodes around the place where it
  stands, and says of the nearest of them which part of it comes next.
-/
import TemplateExpr.Names
import TemplateExpr.Syntax.Tree
import TemplateExpr.Binding.Ancestors

namespace TemplateExpr

/-- The names that are known to mean something else than a property of the component. -/
structure Vocabulary where
  /-- Names of the language, which are never looked up. -/
  globals : Names
  /-- Names of helper functions. -/
  helpers : Names
deriving DecidableEq, Repr, Inhabited

/-- The context of a reference and its name without sigil. -/
def resolve (helpers : Names) (name : String) : Context × String :=
  match sigilAndName name with
  | (some sigil, bare) => (sigil.context, bare)
  | (none, bare) => if helpers.contains bare then (.helper, bare) else (.property, bare)

namespace Binding

/-- What is done at a place of a tree, and to the chain of the nodes around it. -/
abbrev Walk := StateM Ancestors

namespace Walk

/-- The nearest node is left through another of its parts. -/
def through (role : Role) : Walk Unit :=
  modify (·.through role)

/-- A visit inside a node, which is left again behind it. -/
def inside {α : Type} (node : Enclosing) (visit : Walk α) : Walk α := do
  modify (·.push node)
  let result ← visit
  modify (·.pop)
  return result

end Walk

open Walk

def visitIdentifier (v : Vocabulary) (id : Identifier) : Walk Identifier := do
  let chain ← get
  if v.globals.contains id.name || chain.excludes id.name then return id
  else
    let found := resolve v.helpers id.name
    return { id with name := found.2, context := some found.1 }

mutual

def visitExpr (v : Vocabulary) : Expr → Walk Expr
  | .identifier id => return .identifier (← visitIdentifier v id)
  | .literal value raw span => return .literal value raw span
  | .this span => return .this span
  | .array elements span => inside .other do
    let elements ← visitList v elements
    return .array elements span
  | .object properties span => inside .other do
    let properties ← visitProperties v properties
    return .object properties span
  | .member object property computed optional span => inside .member do
    through .object
    let object ← visitExpr v object
    if computed then
      through .property
      let property ← visitExpr v property
      return .member object property computed optional span
    else return .member object property computed optional span
  | .call callee arguments optional span => inside .other do
    through .other
    let callee ← visitExpr v callee
    let arguments ← visitList v arguments
    return .call callee arguments optional span
  | .unary op argument span => inside .other do
    through .other
    let argument ← visitExpr v argument
    return .unary op argument span
  | .update op leading argument span => inside .other do
    through .other
    let argument ← visitExpr v argument
    return .update op leading argument span
  | .binary op left right span => inside .other do
    through .left
    let left ← visitExpr v left
    through .right
    let right ← visitExpr v right
    return .binary op left right span
  | .logical op left right span => inside .other do
    through .left
    let left ← visitExpr v left
    through .right
    let right ← visitExpr v right
    return .logical op left right span
  | .conditional test consequent alternate span => inside .other do
    through .other
    let test ← visitExpr v test
    through .other
    let consequent ← visitExpr v consequent
    through .other
    let alternate ← visitExpr v alternate
    return .conditional test consequent alternate span
  | .assignment op left right span => inside .assignment do
    through .left
    let left ← visitExpr v left
    through .right
    let right ← visitExpr v right
    return .assignment op left right span
  | .sequence expressions span => inside .other do
    let expressions ← visitList v expressions
    return .sequence expressions span
  | .arrow lambda => return .arrow (← visitLambda v lambda)
  | .function lambda => return .function (← visitLambda v lambda)

/-- The items of a list, each through the same part of the node around them. -/
def visitList (v : Vocabulary) : List Expr → Walk (List Expr)
  | [] => return []
  | e :: es => do
    through .other
    let e ← visitExpr v e
    let es ← visitList v es
    return e :: es

/-- Only a computed key is a reference. -/
def visitProperty (v : Vocabulary) : Property → Walk Property
  | ⟨key, value, computed, shorthand, span⟩ =>
    if computed then do
      through .other
      let key ← visitExpr v key
      through .other
      let value ← visitExpr v value
      return ⟨key, value, computed, shorthand, span⟩
    else do
      through .other
      let value ← visitExpr v value
      return ⟨key, value, computed, shorthand, span⟩

def visitProperties (v : Vocabulary) : List Property → Walk (List Property)
  | [] => return []
  | p :: ps => do
    let p ← visitProperty v p
    let ps ← visitProperties v ps
    return p :: ps

/-- The name of a function is no reference. -/
def visitLambda (v : Vocabulary) : Lambda → Walk Lambda
  | ⟨id, params, body, span⟩ => inside (.function (params.map (·.binding.name))) do
    let params ← visitParams v params
    through .body
    let body ← visitBody v body
    return ⟨id, params, body, span⟩

def visitParam (v : Vocabulary) : Param → Walk Param
  | .plain id => return .plain (← visitIdentifier v id)
  | .withDefault id value span => inside .assignment do
    through .left
    let id ← visitIdentifier v id
    through .right
    let value ← visitExpr v value
    return .withDefault id value span

def visitParams (v : Vocabulary) : List Param → Walk (List Param)
  | [] => return []
  | p :: ps => do
    through .param
    let p ← visitParam v p
    let ps ← visitParams v ps
    return p :: ps

def visitBody (v : Vocabulary) : Body → Walk Body
  | .expression value => return .expression (← visitExpr v value)
  | .block statements span => return .block (← visitStatements v statements) span

def visitStatement (v : Vocabulary) : Statement → Walk Statement
  | .expression value span => inside .other do
    through .other
    let value ← visitExpr v value
    return .expression value span
  | .return none span => return .return none span
  | .return (some argument) span => inside .other do
    through .other
    let argument ← visitExpr v argument
    return .return (some argument) span
  | .declaration lambda => return .declaration (← visitLambda v lambda)

def visitStatements (v : Vocabulary) : List Statement → Walk (List Statement)
  | [] => return []
  | s :: ss => do
    let s ← visitStatement v s
    let ss ← visitStatements v ss
    return s :: ss

end

end Binding

/-- The program with its references classified. -/
def Program.classify (v : Vocabulary) (program : Program) : Program :=
  let walk := Binding.Walk.inside .other (Binding.visitStatements v program.body)
  { program with body := (walk.run Binding.Ancestors.none).1 }

/-- An expression that stands alone, with its references classified. -/
def Expr.classify (v : Vocabulary) (e : Expr) : Expr :=
  ((Binding.visitExpr v e).run Binding.Ancestors.none).1

end TemplateExpr
