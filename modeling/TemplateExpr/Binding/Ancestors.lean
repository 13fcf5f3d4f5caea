/-
  The nodes around an identifier, and whether they keep it from being looked up: it binds a
  parameter, names a member, is assigned to, or is the name of a parameter of some function
  around it.
-/
namespace TemplateExpr.Binding

/-- A node, as far as the names inside it are concerned. -/
inductive Enclosing where
  /-- A function, with the names of its parameters. -/
  | function (params : List String)
  | member
  /-- An assignment, or a parameter with a default value. -/
  | assignment
  | other
deriving DecidableEq, Repr, Inhabited

/-- The part of a node that an identifier is in. -/
inductive Role where
  | param
  | body
  | object
  | property
  | left
  | right
  | other
deriving DecidableEq, Repr, Inhabited

/-- A node around an identifier and the part of it that leads there. -/
structure Ancestor where
  node : Enclosing
  role : Role
deriving DecidableEq, Repr, Inhabited

/-- The identifier is itself the target of its parent node. -/
def Ancestor.isTarget (a : Ancestor) : Bool :=
  match a.node, a.role with
  | .function _, .param => true
  | .member, .property => true
  | .assignment, .left => true
  | _, _ => false

/-- The node is a function with a parameter of this name. -/
def Ancestor.binds (a : Ancestor) (name : String) : Bool :=
  match a.node with
  | .function params => params.contains name
  | .member | .assignment | .other => false

/-- The nodes around an identifier, the nearest first. -/
structure Ancestors where
  toList : List Ancestor
deriving DecidableEq, Repr, Inhabited

namespace Ancestors

def none : Ancestors :=
  ⟨[]⟩

def size (chain : Ancestors) : Nat :=
  chain.toList.length

/-- The nearest node. -/
def parent? (chain : Ancestors) : Option Ancestor :=
  chain.toList.head?

/-- One node further in; which part of it is not said yet. -/
def push (chain : Ancestors) (node : Enclosing) : Ancestors :=
  ⟨⟨node, .other⟩ :: chain.toList⟩

/-- One node further out. -/
def pop (chain : Ancestors) : Ancestors :=
  ⟨chain.toList.tail⟩

/-- Through another part of the nearest node. -/
def through (chain : Ancestors) (role : Role) : Ancestors :=
  match chain.toList with
  | [] => chain
  | parent :: outer => ⟨{ parent with role } :: outer⟩

/-- The name stands for no reference of the component here. -/
def excludes (chain : Ancestors) (name : String) : Bool :=
  match chain.toList with
  | [] => false
  | parent :: _ => parent.isTarget || chain.toList.any (·.binds name)

end Ancestors

end TemplateExpr.Binding
