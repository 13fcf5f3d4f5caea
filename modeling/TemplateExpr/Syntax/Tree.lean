/-
  The syntax tree of an expression program. Operators are kept by their spelling, and literals
  keep the characters they were written with beside their value.
-/
import TemplateExpr.Sigil
import TemplateExpr.Source.Span

namespace TemplateExpr
open Source (Span)

/-- A name where it occurs. Until it is classified the name has its sigil; then it has a
    context instead, or none if it refers to nothing in the component. -/
structure Identifier where
  name : String
  context : Option Context
  span : Span
deriving DecidableEq, Repr, Inhabited

/-- The value of a literal. -/
inductive LiteralValue where
  | null
  | boolean (value : Bool)
  | number (value : Float)
  | text (value : String)
deriving BEq, Repr, Inhabited

mutual

inductive Expr where
  | identifier (id : Identifier)
  | literal (value : LiteralValue) (raw : String) (span : Span)
  | this (span : Span)
  | array (elements : List Expr) (span : Span)
  | object (properties : List Property) (span : Span)
  /-- `object.property`, `object[property]`, or either behind `?.`. -/
  | member (object property : Expr) (computed optional : Bool) (span : Span)
  | call (callee : Expr) (arguments : List Expr) (optional : Bool) (span : Span)
  | unary (operator : String) (argument : Expr) (span : Span)
  /-- `++` or `--`, in front of the argument if `leading`. -/
  | update (operator : String) (leading : Bool) (argument : Expr) (span : Span)
  | binary (operator : String) (left right : Expr) (span : Span)
  | logical (operator : String) (left right : Expr) (span : Span)
  | conditional (test consequent alternate : Expr) (span : Span)
  | assignment (operator : String) (left right : Expr) (span : Span)
  | sequence (expressions : List Expr) (span : Span)
  | arrow (lambda : Lambda)
  | function (lambda : Lambda)

/-- An entry of an object. A key that is not computed names the property; in a shorthand
    entry the value repeats the key. -/
structure Property where
  key : Expr
  value : Expr
  computed : Bool
  shorthand : Bool
  span : Span

/-- What arrow functions, function expressions and function declarations have in common. -/
structure Lambda where
  id : Option Identifier
  params : List Param
  body : Body
  span : Span

/-- A parameter, with or without a value that it takes by default. -/
inductive Param where
  | plain (id : Identifier)
  | withDefault (id : Identifier) (value : Expr) (span : Span)

inductive Body where
  | expression (value : Expr)
  | block (statements : List Statement) (span : Span)

inductive Statement where
  | expression (value : Expr) (span : Span)
  | return (argument : Option Expr) (span : Span)
  | declaration (lambda : Lambda)

end

instance : Inhabited Expr :=
  ⟨.this default⟩

instance : Inhabited Statement :=
  ⟨.return none default⟩

/-- A parsed text, with the URL of its document, if that is known. -/
structure Program where
  body : List Statement
  span : Span
  url : Option String
deriving Inhabited

namespace Expr

def span : Expr → Span
  | identifier id => id.span
  | literal _ _ span | this span | array _ span | object _ span | member _ _ _ _ span
  | call _ _ _ span | unary _ _ span | update _ _ _ span | binary _ _ _ span
  | logical _ _ _ span | conditional _ _ _ span | assignment _ _ _ span
  | sequence _ span => span
  | arrow lambda | function lambda => lambda.span

/-- A name, or a member that is not read behind `?.`, can be assigned to. -/
def isTarget : Expr → Bool
  | identifier _ => true
  | member _ _ _ optional _ => !optional
  | _ => false

def identifier? : Expr → Option Identifier
  | identifier id => some id
  | _ => none

end Expr

/-- The name that a parameter binds. -/
def Param.binding : Param → Identifier
  | plain id => id
  | withDefault id _ _ => id

def Param.span : Param → Span
  | plain id => id.span
  | withDefault _ _ span => span

/-- The names that the parameters bind. -/
def Lambda.paramNames (lambda : Lambda) : List String :=
  lambda.params.map (·.binding.name)

def Statement.span : Statement → Span
  | expression _ span => span
  | .return _ span => span
  | declaration lambda => lambda.span

end TemplateExpr
