/-
  The trees whose text is meant to be read back, and the two things that keep it from being
  read back.

  * `Expr.Printable`: names and literals are single tokens, and each node has a shape that the
    grammar gives to trees.
  * `Expr.legible`: no point right behind a whole number, and no arrow function whose body is an
    expression that begins with a brace.
-/
import TemplateExpr.Proofs.Token.Spelled
import TemplateExpr.Proofs.Tree.Relabel
import TemplateExpr.Proofs.Printing.Bits

namespace TemplateExpr
open Text

/-! ## Labels -/

/-- Every name is the one that it is written with, without context. -/
def Relabel.lexical : Relabel where
  onName id := ⟨id.written, none, id.span⟩
  onFunction id := ⟨id.name, none, id.span⟩
  onSpan := id

/-- The names are those that are written, and nothing has a place. -/
def Relabel.bare : Relabel where
  onName id := ⟨id.written, none, .nowhere⟩
  onFunction id := ⟨id.name, none, .nowhere⟩
  onSpan _ := .nowhere

/-! ## Shapes -/

/-- The text is a name, or a reserved word. -/
def IsWord (g : Grammar) (text : String) : Prop :=
  Spelled g (.name text) text ∨ text ∈ Symbol.keywords

/-- The characters are a literal with the value; numbers are left out unless `full`. -/
def LiteralValue.Written (g : Grammar) (full : Bool) (raw : String) : LiteralValue → Prop
  | null => raw = "null"
  | boolean value => raw = if value then "true" else "false"
  | number value => full = true ∧ Spelled g (.number value) raw
  | text value => Spelled g (.text value) raw

/-- The name of a member, or of an entry of an object. -/
def Expr.IsName (g : Grammar) : Expr → Prop
  | .identifier id => IsWord g id.written
  | _ => False

/-- The key of an entry that is not computed. -/
def Expr.IsKey (g : Grammar) : Expr → Prop
  | .identifier id => IsWord g id.written
  | .literal (.text value) raw _ => Spelled g (.text value) raw
  | .literal (.number value) raw _ => Spelled g (.number value) raw
  | _ => False

/-- The name of an entry without value of its own, which stands for both. -/
def Expr.IsShorthand (g : Grammar) : Expr → Expr → Prop
  | .identifier key, .identifier value =>
    key.written = value.written ∧ Spelled g (.name value.written) value.written
  | _, _ => False

/-- The operator is one of a binary level of the kind. -/
def IsOperator (logical : Bool) (op : String) : Prop :=
  ∃ level ∈ Operator.levels, level.logical = logical ∧ op ∈ level.operators

section
variable (g : Grammar) (full : Bool)

mutual

/-- The tree has a shape that the grammar gives to trees, of single tokens. Functions, and
    numbers but for the keys of objects, are left out unless `full`. -/
def Expr.Printable : Expr → Prop
  | .identifier id => Spelled g (.name id.written) id.written
  | .literal value raw _ => value.Written g full raw
  | .this _ => True
  | .array elements _ => PrintableList elements
  | .object properties _ => PrintableProperties properties
  | .member object property computed _ _ =>
    object.Printable ∧ if computed then property.Printable else property.IsName g
  | .call callee arguments _ _ => callee.Printable ∧ PrintableList arguments
  | .unary op argument _ =>
    (op ∈ Operator.unary ∨ op ∈ Operator.unaryWords) ∧ argument.Printable
  | .update op _ argument _ =>
    op ∈ Operator.update ∧ argument.isTarget = true ∧ argument.Printable
  | .binary op left right _ =>
    (op = Operator.power ∨ IsOperator false op) ∧ left.Printable ∧ right.Printable
  | .logical op left right _ => IsOperator true op ∧ left.Printable ∧ right.Printable
  | .conditional test consequent alternate _ =>
    test.Printable ∧ consequent.Printable ∧ alternate.Printable
  | .assignment op left right _ =>
    op ∈ Operator.assignment ∧ left.isTarget = true ∧ left.Printable ∧ right.Printable
  | .sequence expressions _ => 2 ≤ expressions.length ∧ PrintableList expressions
  | .arrow lambda => full = true ∧ lambda.id = none ∧ lambda.Printable
  | .function lambda => full = true ∧ lambda.body.isBlock = true ∧ lambda.Printable

def PrintableList : List Expr → Prop
  | [] => True
  | e :: es => e.Printable ∧ PrintableList es

def Property.Printable : Property → Prop
  | ⟨key, value, computed, shorthand, _⟩ =>
    if shorthand then computed = false ∧ Expr.IsShorthand g key value
    else (if computed then key.Printable else key.IsKey g) ∧ value.Printable

def PrintableProperties : List Property → Prop
  | [] => True
  | p :: ps => p.Printable ∧ PrintableProperties ps

def Lambda.Printable : Lambda → Prop
  | ⟨id, params, body, _⟩ =>
    (∀ name : Identifier, id = some name → Spelled g (.name name.name) name.name) ∧
      PrintableParams params ∧ body.Printable

def Param.Printable : Param → Prop
  | .plain id => Spelled g (.name id.written) id.written
  | .withDefault id value _ => Spelled g (.name id.written) id.written ∧ value.Printable

def PrintableParams : List Param → Prop
  | [] => True
  | p :: ps => p.Printable ∧ PrintableParams ps

def Body.Printable : Body → Prop
  | .expression value => value.Printable
  | .block statements _ => PrintableStatements true statements

/-- Only the body of a function has `return`. -/
def Statement.Printable (inBody : Bool) : Statement → Prop
  | .expression value _ => value.Printable
  | .return none _ => inBody = true
  | .return (some argument) _ => inBody = true ∧ argument.Printable
  | .declaration lambda =>
    full = true ∧ lambda.id.isSome = true ∧ lambda.body.isBlock = true ∧ lambda.Printable

def PrintableStatements (inBody : Bool) : List Statement → Prop
  | [] => True
  | s :: ss => s.Printable inBody ∧ PrintableStatements inBody ss

end

end

/-! ## Legible trees -/

/-- A number that is written with digits only. -/
def Expr.isWholeNumber : Expr → Bool
  | .literal (.number _) raw _ => raw.toList.all isDigit
  | _ => false

/-- The body is an expression, but its text begins like a block. -/
def Body.readsAsBlock (body : Body) : Bool :=
  !body.isBlock && body.written.toList.head? == some '\x7b'

mutual

/-- The point of a member would belong to a whole number in front of it, and a brace behind
    `=>` begins a block. -/
def Expr.legible : Expr → Bool
  | .identifier _ | .literal _ _ _ | .this _ => true
  | .array elements _ => legibleList elements
  | .object properties _ => legibleProperties properties
  | .member object property computed optional _ =>
    object.legible && property.legible && (computed || optional || !object.isWholeNumber)
  | .call callee arguments _ _ => callee.legible && legibleList arguments
  | .unary _ argument _ | .update _ _ argument _ => argument.legible
  | .binary _ left right _ | .logical _ left right _ | .assignment _ left right _ =>
    left.legible && right.legible
  | .conditional test consequent alternate _ =>
    test.legible && consequent.legible && alternate.legible
  | .sequence expressions _ => legibleList expressions
  | .arrow ⟨_, params, body, _⟩ => legibleParams params && body.legible && !body.readsAsBlock
  | .function lambda => lambda.legible

def legibleList : List Expr → Bool
  | [] => true
  | e :: es => e.legible && legibleList es

def Property.legible : Property → Bool
  | ⟨key, value, _, _, _⟩ => key.legible && value.legible

def legibleProperties : List Property → Bool
  | [] => true
  | p :: ps => p.legible && legibleProperties ps

def Lambda.legible : Lambda → Bool
  | ⟨_, params, body, _⟩ => legibleParams params && body.legible

def Param.legible : Param → Bool
  | .plain _ => true
  | .withDefault _ value _ => value.legible

def legibleParams : List Param → Bool
  | [] => true
  | p :: ps => p.legible && legibleParams ps

def Body.legible : Body → Bool
  | .expression value => value.legible
  | .block statements _ => legibleStatements statements

def Statement.legible : Statement → Bool
  | .expression value _ => value.legible
  | .return none _ => true
  | .return (some argument) _ => argument.legible
  | .declaration lambda => lambda.legible

def legibleStatements : List Statement → Bool
  | [] => true
  | s :: ss => s.legible && legibleStatements ss

end

def Program.legible (program : Program) : Bool :=
  legibleStatements program.body

theorem legibleList_iff {es : List Expr} :
    legibleList es = true ↔ ∀ e ∈ es, e.legible = true := by
  induction es with
  | nil => simp [legibleList]
  | cons e es ih => simp [legibleList, ih]

theorem legibleProperties_iff {ps : List Property} :
    legibleProperties ps = true ↔ ∀ p ∈ ps, p.legible = true := by
  induction ps with
  | nil => simp [legibleProperties]
  | cons p ps ih => simp [legibleProperties, ih]

theorem legibleParams_iff {ps : List Param} :
    legibleParams ps = true ↔ ∀ p ∈ ps, p.legible = true := by
  induction ps with
  | nil => simp [legibleParams]
  | cons p ps ih => simp [legibleParams, ih]

theorem legibleStatements_iff {ss : List Statement} :
    legibleStatements ss = true ↔ ∀ s ∈ ss, s.legible = true := by
  induction ss with
  | nil => simp [legibleStatements]
  | cons s ss ih => simp [legibleStatements, ih]

end TemplateExpr
