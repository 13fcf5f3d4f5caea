/-
  The values of the literals of a tree: their list, and the tree with other values in their
  place.

  * `Program.mapLiterals_eq_self`: a tree whose values all stay is the same tree.
-/
import TemplateExpr.Syntax.Tree

namespace TemplateExpr

/-! ## The values -/

mutual

def Expr.literals : Expr → List LiteralValue
  | .identifier _ | .this _ => []
  | .literal value _ _ => [value]
  | .array elements _ => literalsOfList elements
  | .object properties _ => literalsOfProperties properties
  | .member object property _ _ _ => object.literals ++ property.literals
  | .call callee arguments _ _ => callee.literals ++ literalsOfList arguments
  | .unary _ argument _ | .update _ _ argument _ => argument.literals
  | .binary _ left right _ | .logical _ left right _ | .assignment _ left right _ =>
    left.literals ++ right.literals
  | .conditional test consequent alternate _ =>
    test.literals ++ consequent.literals ++ alternate.literals
  | .sequence expressions _ => literalsOfList expressions
  | .arrow lambda | .function lambda => lambda.literals

def literalsOfList : List Expr → List LiteralValue
  | [] => []
  | e :: es => e.literals ++ literalsOfList es

def Property.literals : Property → List LiteralValue
  | ⟨key, value, _, _, _⟩ => key.literals ++ value.literals

def literalsOfProperties : List Property → List LiteralValue
  | [] => []
  | p :: ps => p.literals ++ literalsOfProperties ps

def Lambda.literals : Lambda → List LiteralValue
  | ⟨_, params, body, _⟩ => literalsOfParams params ++ body.literals

def Param.literals : Param → List LiteralValue
  | .plain _ => []
  | .withDefault _ value _ => value.literals

def literalsOfParams : List Param → List LiteralValue
  | [] => []
  | p :: ps => p.literals ++ literalsOfParams ps

def Body.literals : Body → List LiteralValue
  | .expression value => value.literals
  | .block statements _ => literalsOfStatements statements

def Statement.literals : Statement → List LiteralValue
  | .expression value _ => value.literals
  | .return none _ => []
  | .return (some argument) _ => argument.literals
  | .declaration lambda => lambda.literals

def literalsOfStatements : List Statement → List LiteralValue
  | [] => []
  | s :: ss => s.literals ++ literalsOfStatements ss

end

/-- The values of all literals of the program. -/
def Program.literals (program : Program) : List LiteralValue :=
  literalsOfStatements program.body

/-! ## Other values in their place -/

section
variable (f : LiteralValue → LiteralValue)

mutual

def Expr.mapLiterals : Expr → Expr
  | .identifier id => .identifier id
  | .literal value raw span => .literal (f value) raw span
  | .this span => .this span
  | .array elements span => .array (mapLiteralsList elements) span
  | .object properties span => .object (mapLiteralsProperties properties) span
  | .member object property computed optional span =>
    .member object.mapLiterals property.mapLiterals computed optional span
  | .call callee arguments optional span =>
    .call callee.mapLiterals (mapLiteralsList arguments) optional span
  | .unary op argument span => .unary op argument.mapLiterals span
  | .update op leading argument span => .update op leading argument.mapLiterals span
  | .binary op left right span => .binary op left.mapLiterals right.mapLiterals span
  | .logical op left right span => .logical op left.mapLiterals right.mapLiterals span
  | .conditional test consequent alternate span =>
    .conditional test.mapLiterals consequent.mapLiterals alternate.mapLiterals span
  | .assignment op left right span => .assignment op left.mapLiterals right.mapLiterals span
  | .sequence expressions span => .sequence (mapLiteralsList expressions) span
  | .arrow lambda => .arrow lambda.mapLiterals
  | .function lambda => .function lambda.mapLiterals

def mapLiteralsList : List Expr → List Expr
  | [] => []
  | e :: es => e.mapLiterals :: mapLiteralsList es

def Property.mapLiterals : Property → Property
  | ⟨key, value, computed, shorthand, span⟩ =>
    ⟨key.mapLiterals, value.mapLiterals, computed, shorthand, span⟩

def mapLiteralsProperties : List Property → List Property
  | [] => []
  | p :: ps => p.mapLiterals :: mapLiteralsProperties ps

def Lambda.mapLiterals : Lambda → Lambda
  | ⟨id, params, body, span⟩ => ⟨id, mapLiteralsParams params, body.mapLiterals, span⟩

def Param.mapLiterals : Param → Param
  | .plain id => .plain id
  | .withDefault id value span => .withDefault id value.mapLiterals span

def mapLiteralsParams : List Param → List Param
  | [] => []
  | p :: ps => p.mapLiterals :: mapLiteralsParams ps

def Body.mapLiterals : Body → Body
  | .expression value => .expression value.mapLiterals
  | .block statements span => .block (mapLiteralsStatements statements) span

def Statement.mapLiterals : Statement → Statement
  | .expression value span => .expression value.mapLiterals span
  | .return none span => .return none span
  | .return (some argument) span => .return (some argument.mapLiterals) span
  | .declaration lambda => .declaration lambda.mapLiterals

def mapLiteralsStatements : List Statement → List Statement
  | [] => []
  | s :: ss => s.mapLiterals :: mapLiteralsStatements ss

end

/-- The program with other values in its literals. -/
def Program.mapLiterals (program : Program) : Program :=
  { program with body := mapLiteralsStatements f program.body }

end

section
variable {f : LiteralValue → LiteralValue}

theorem eq_self_of_append {as bs : List LiteralValue} (h : ∀ value ∈ as ++ bs, f value = value) :
    (∀ value ∈ as, f value = value) ∧ ∀ value ∈ bs, f value = value :=
  List.forall_mem_append.1 h

mutual

theorem Expr.mapLiterals_eq_self : ∀ e : Expr, (∀ value ∈ e.literals, f value = value) →
    e.mapLiterals f = e
  | .identifier _, _ | .this _, _ => rfl
  | .literal value raw span, h =>
    congrArg (Expr.literal · raw span) (h value List.mem_cons_self)
  | .array elements _, h => by
    rw [Expr.mapLiterals, mapLiteralsList_eq_self elements h]
  | .object properties _, h => by
    rw [Expr.mapLiterals, mapLiteralsProperties_eq_self properties h]
  | .member object property _ _ _, h => by
    obtain ⟨ho, hp⟩ := eq_self_of_append h
    rw [Expr.mapLiterals, object.mapLiterals_eq_self ho, property.mapLiterals_eq_self hp]
  | .call callee arguments _ _, h => by
    obtain ⟨hc, ha⟩ := eq_self_of_append h
    rw [Expr.mapLiterals, callee.mapLiterals_eq_self hc, mapLiteralsList_eq_self arguments ha]
  | .unary _ argument _, h | .update _ _ argument _, h => by
    rw [Expr.mapLiterals, argument.mapLiterals_eq_self h]
  | .binary _ left right _, h | .logical _ left right _, h | .assignment _ left right _, h => by
    obtain ⟨hl, hr⟩ := eq_self_of_append h
    rw [Expr.mapLiterals, left.mapLiterals_eq_self hl, right.mapLiterals_eq_self hr]
  | .conditional test consequent alternate _, h => by
    obtain ⟨h, ha⟩ := eq_self_of_append h
    obtain ⟨ht, hc⟩ := eq_self_of_append h
    rw [Expr.mapLiterals, test.mapLiterals_eq_self ht, consequent.mapLiterals_eq_self hc,
      alternate.mapLiterals_eq_self ha]
  | .sequence expressions _, h => by
    rw [Expr.mapLiterals, mapLiteralsList_eq_self expressions h]
  | .arrow lambda, h | .function lambda, h => by
    rw [Expr.mapLiterals, lambda.mapLiterals_eq_self h]

theorem mapLiteralsList_eq_self : ∀ es : List Expr,
    (∀ value ∈ literalsOfList es, f value = value) → mapLiteralsList f es = es
  | [], _ => rfl
  | e :: es, h => by
    obtain ⟨he, hes⟩ := eq_self_of_append h
    rw [mapLiteralsList, e.mapLiterals_eq_self he, mapLiteralsList_eq_self es hes]

theorem Property.mapLiterals_eq_self : ∀ p : Property, (∀ value ∈ p.literals, f value = value) →
    p.mapLiterals f = p
  | ⟨key, value, _, _, _⟩, h => by
    obtain ⟨hk, hv⟩ := eq_self_of_append h
    rw [Property.mapLiterals, key.mapLiterals_eq_self hk, value.mapLiterals_eq_self hv]

theorem mapLiteralsProperties_eq_self : ∀ ps : List Property,
    (∀ value ∈ literalsOfProperties ps, f value = value) → mapLiteralsProperties f ps = ps
  | [], _ => rfl
  | p :: ps, h => by
    obtain ⟨hp, hps⟩ := eq_self_of_append h
    rw [mapLiteralsProperties, p.mapLiterals_eq_self hp, mapLiteralsProperties_eq_self ps hps]

theorem Lambda.mapLiterals_eq_self : ∀ lambda : Lambda,
    (∀ value ∈ lambda.literals, f value = value) → lambda.mapLiterals f = lambda
  | ⟨_, params, body, _⟩, h => by
    obtain ⟨hp, hb⟩ := eq_self_of_append h
    rw [Lambda.mapLiterals, mapLiteralsParams_eq_self params hp, body.mapLiterals_eq_self hb]

theorem Param.mapLiterals_eq_self : ∀ p : Param, (∀ value ∈ p.literals, f value = value) →
    p.mapLiterals f = p
  | .plain _, _ => rfl
  | .withDefault _ value _, h => by rw [Param.mapLiterals, value.mapLiterals_eq_self h]

theorem mapLiteralsParams_eq_self : ∀ ps : List Param,
    (∀ value ∈ literalsOfParams ps, f value = value) → mapLiteralsParams f ps = ps
  | [], _ => rfl
  | p :: ps, h => by
    obtain ⟨hp, hps⟩ := eq_self_of_append h
    rw [mapLiteralsParams, p.mapLiterals_eq_self hp, mapLiteralsParams_eq_self ps hps]

theorem Body.mapLiterals_eq_self : ∀ b : Body, (∀ value ∈ b.literals, f value = value) →
    b.mapLiterals f = b
  | .expression value, h => by rw [Body.mapLiterals, value.mapLiterals_eq_self h]
  | .block statements _, h => by rw [Body.mapLiterals, mapLiteralsStatements_eq_self statements h]

theorem Statement.mapLiterals_eq_self : ∀ s : Statement,
    (∀ value ∈ s.literals, f value = value) → s.mapLiterals f = s
  | .expression value _, h => by rw [Statement.mapLiterals, value.mapLiterals_eq_self h]
  | .return none _, _ => rfl
  | .return (some argument) _, h => by rw [Statement.mapLiterals, argument.mapLiterals_eq_self h]
  | .declaration lambda, h => by rw [Statement.mapLiterals, lambda.mapLiterals_eq_self h]

theorem mapLiteralsStatements_eq_self : ∀ ss : List Statement,
    (∀ value ∈ literalsOfStatements ss, f value = value) → mapLiteralsStatements f ss = ss
  | [], _ => rfl
  | s :: ss, h => by
    obtain ⟨hs, hss⟩ := eq_self_of_append h
    rw [mapLiteralsStatements, s.mapLiterals_eq_self hs, mapLiteralsStatements_eq_self ss hss]

end

/-- Where every value stays, the program does. -/
theorem Program.mapLiterals_eq_self (p : Program) (h : ∀ value ∈ p.literals, f value = value) :
    p.mapLiterals f = p := by
  rw [mapLiterals, mapLiteralsStatements_eq_self p.body h]

end

end TemplateExpr
