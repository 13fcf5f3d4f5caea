/-
  Relabelling: every identifier and every span of a tree is replaced, and all else of the tree
  stays. Moving a tree to other places and putting the sigils back into its names are both
  relabellings.

  * `isTarget_relabel`, `precedence_relabel`: what may be assigned to, and how tight a tree
    binds, does not depend on labels.
  * `relabel_relabel`: relabelling twice is relabelling once.
-/
import TemplateExpr.Syntax.Precedence

namespace TemplateExpr
open Source (Span)

/-- What becomes of the labels of a tree. -/
structure Relabel where
  /-- Of an identifier that is not the name of a function. -/
  onName : Identifier → Identifier
  /-- Of the name of a function. -/
  onFunction : Identifier → Identifier
  /-- Of the span of any other node. -/
  onSpan : Span → Span

mutual

def Expr.relabel (r : Relabel) : Expr → Expr
  | .identifier id => .identifier (r.onName id)
  | .literal value raw span => .literal value raw (r.onSpan span)
  | .this span => .this (r.onSpan span)
  | .array elements span => .array (relabelList r elements) (r.onSpan span)
  | .object properties span => .object (relabelProperties r properties) (r.onSpan span)
  | .member object property computed optional span =>
    .member (object.relabel r) (property.relabel r) computed optional (r.onSpan span)
  | .call callee arguments optional span =>
    .call (callee.relabel r) (relabelList r arguments) optional (r.onSpan span)
  | .unary op argument span => .unary op (argument.relabel r) (r.onSpan span)
  | .update op leading argument span =>
    .update op leading (argument.relabel r) (r.onSpan span)
  | .binary op left right span =>
    .binary op (left.relabel r) (right.relabel r) (r.onSpan span)
  | .logical op left right span =>
    .logical op (left.relabel r) (right.relabel r) (r.onSpan span)
  | .conditional test consequent alternate span =>
    .conditional (test.relabel r) (consequent.relabel r) (alternate.relabel r) (r.onSpan span)
  | .assignment op left right span =>
    .assignment op (left.relabel r) (right.relabel r) (r.onSpan span)
  | .sequence expressions span => .sequence (relabelList r expressions) (r.onSpan span)
  | .arrow lambda => .arrow (lambda.relabel r)
  | .function lambda => .function (lambda.relabel r)

def relabelList (r : Relabel) : List Expr → List Expr
  | [] => []
  | e :: es => e.relabel r :: relabelList r es

def Property.relabel (r : Relabel) : Property → Property
  | ⟨key, value, computed, shorthand, span⟩ =>
    ⟨key.relabel r, value.relabel r, computed, shorthand, r.onSpan span⟩

def relabelProperties (r : Relabel) : List Property → List Property
  | [] => []
  | p :: ps => p.relabel r :: relabelProperties r ps

def Lambda.relabel (r : Relabel) : Lambda → Lambda
  | ⟨id, params, body, span⟩ =>
    ⟨id.map r.onFunction, relabelParams r params, body.relabel r, r.onSpan span⟩

def Param.relabel (r : Relabel) : Param → Param
  | .plain id => .plain (r.onName id)
  | .withDefault id value span => .withDefault (r.onName id) (value.relabel r) (r.onSpan span)

def relabelParams (r : Relabel) : List Param → List Param
  | [] => []
  | p :: ps => p.relabel r :: relabelParams r ps

def Body.relabel (r : Relabel) : Body → Body
  | .expression value => .expression (value.relabel r)
  | .block statements span => .block (relabelStatements r statements) (r.onSpan span)

def Statement.relabel (r : Relabel) : Statement → Statement
  | .expression value span => .expression (value.relabel r) (r.onSpan span)
  | .return none span => .return none (r.onSpan span)
  | .return (some argument) span => .return (some (argument.relabel r)) (r.onSpan span)
  | .declaration lambda => .declaration (lambda.relabel r)

def relabelStatements (r : Relabel) : List Statement → List Statement
  | [] => []
  | s :: ss => s.relabel r :: relabelStatements r ss

end

/-- The program with other labels. -/
def Program.relabel (r : Relabel) (program : Program) : Program :=
  { program with body := relabelStatements r program.body, span := r.onSpan program.span }

section
variable (r : Relabel)

theorem relabelList_eq (es : List Expr) : relabelList r es = es.map (·.relabel r) := by
  induction es with
  | nil => rfl
  | cons e es ih => rw [relabelList, ih, List.map_cons]

theorem relabelProperties_eq (ps : List Property) :
    relabelProperties r ps = ps.map (·.relabel r) := by
  induction ps with
  | nil => rfl
  | cons p ps ih => rw [relabelProperties, ih, List.map_cons]

theorem relabelParams_eq (ps : List Param) : relabelParams r ps = ps.map (·.relabel r) := by
  induction ps with
  | nil => rfl
  | cons p ps ih => rw [relabelParams, ih, List.map_cons]

theorem relabelStatements_eq (ss : List Statement) :
    relabelStatements r ss = ss.map (·.relabel r) := by
  induction ss with
  | nil => rfl
  | cons s ss ih => rw [relabelStatements, ih, List.map_cons]

@[simp] theorem Expr.isTarget_relabel (e : Expr) : (e.relabel r).isTarget = e.isTarget := by
  cases e <;> rfl

@[simp] theorem Expr.precedence_relabel (e : Expr) :
    (e.relabel r).precedence = e.precedence := by
  cases e <;> rfl

end

/-! ## One relabelling after the other -/

/-- Every label is kept. -/
def Relabel.same : Relabel := ⟨id, id, id⟩

/-- The one relabelling, then the other. -/
def Relabel.followedBy (r s : Relabel) : Relabel :=
  ⟨s.onName ∘ r.onName, s.onFunction ∘ r.onFunction, s.onSpan ∘ r.onSpan⟩

mutual

theorem Expr.relabel_same : ∀ e : Expr, e.relabel .same = e
  | .identifier _ | .literal _ _ _ | .this _ => rfl
  | .array elements _ => congrArg (Expr.array · _) (relabelList_same elements)
  | .object properties _ => congrArg (Expr.object · _) (relabelProperties_same properties)
  | .member object property _ _ _ => by
    rw [Expr.relabel, Expr.relabel_same object, Expr.relabel_same property]
    rfl
  | .call callee arguments _ _ => by
    rw [Expr.relabel, Expr.relabel_same callee, relabelList_same arguments]
    rfl
  | .unary _ argument _ => congrArg (Expr.unary _ · _) (Expr.relabel_same argument)
  | .update _ _ argument _ => congrArg (Expr.update _ _ · _) (Expr.relabel_same argument)
  | .binary _ left right _ | .logical _ left right _ | .assignment _ left right _ => by
    rw [Expr.relabel, Expr.relabel_same left, Expr.relabel_same right]
    rfl
  | .conditional test consequent alternate _ => by
    rw [Expr.relabel, Expr.relabel_same test, Expr.relabel_same consequent,
      Expr.relabel_same alternate]
    rfl
  | .sequence expressions _ => congrArg (Expr.sequence · _) (relabelList_same expressions)
  | .arrow lambda => congrArg Expr.arrow (Lambda.relabel_same lambda)
  | .function lambda => congrArg Expr.function (Lambda.relabel_same lambda)

theorem relabelList_same : ∀ es : List Expr, relabelList .same es = es
  | [] => rfl
  | e :: es => by rw [relabelList, Expr.relabel_same e, relabelList_same es]

theorem Property.relabel_same : ∀ p : Property, p.relabel .same = p
  | ⟨key, value, _, _, _⟩ => by
    rw [Property.relabel, Expr.relabel_same key, Expr.relabel_same value]
    rfl

theorem relabelProperties_same : ∀ ps : List Property, relabelProperties .same ps = ps
  | [] => rfl
  | p :: ps => by rw [relabelProperties, Property.relabel_same p, relabelProperties_same ps]

theorem Lambda.relabel_same : ∀ f : Lambda, f.relabel .same = f
  | ⟨id, params, body, _⟩ => by
    rw [Lambda.relabel, relabelParams_same params, Body.relabel_same body]
    cases id <;> rfl

theorem Param.relabel_same : ∀ p : Param, p.relabel .same = p
  | .plain _ => rfl
  | .withDefault _ value _ => congrArg (Param.withDefault _ · _) (Expr.relabel_same value)

theorem relabelParams_same : ∀ ps : List Param, relabelParams .same ps = ps
  | [] => rfl
  | p :: ps => by rw [relabelParams, Param.relabel_same p, relabelParams_same ps]

theorem Body.relabel_same : ∀ b : Body, b.relabel .same = b
  | .expression value => congrArg Body.expression (Expr.relabel_same value)
  | .block statements _ => congrArg (Body.block · _) (relabelStatements_same statements)

theorem Statement.relabel_same : ∀ s : Statement, s.relabel .same = s
  | .expression value _ => congrArg (Statement.expression · _) (Expr.relabel_same value)
  | .return none _ => rfl
  | .return (some argument) _ =>
    congrArg (fun e => Statement.return (some e) _) (Expr.relabel_same argument)
  | .declaration lambda => congrArg Statement.declaration (Lambda.relabel_same lambda)

theorem relabelStatements_same : ∀ ss : List Statement, relabelStatements .same ss = ss
  | [] => rfl
  | s :: ss => by rw [relabelStatements, Statement.relabel_same s, relabelStatements_same ss]

end

section
variable (r s : Relabel)

mutual

theorem Expr.relabel_relabel : ∀ e : Expr, (e.relabel r).relabel s = e.relabel (r.followedBy s)
  | .identifier _ | .literal _ _ _ | .this _ => rfl
  | .array elements _ => congrArg (Expr.array · _) (relabelList_relabel elements)
  | .object properties _ => congrArg (Expr.object · _) (relabelProperties_relabel properties)
  | .member object property _ _ _ => by
    simp only [Expr.relabel, Expr.relabel_relabel object, Expr.relabel_relabel property]
    rfl
  | .call callee arguments _ _ => by
    simp only [Expr.relabel, Expr.relabel_relabel callee, relabelList_relabel arguments]
    rfl
  | .unary _ argument _ => congrArg (Expr.unary _ · _) (Expr.relabel_relabel argument)
  | .update _ _ argument _ => congrArg (Expr.update _ _ · _) (Expr.relabel_relabel argument)
  | .binary _ left right _ | .logical _ left right _ | .assignment _ left right _ => by
    simp only [Expr.relabel, Expr.relabel_relabel left, Expr.relabel_relabel right]
    rfl
  | .conditional test consequent alternate _ => by
    simp only [Expr.relabel, Expr.relabel_relabel test, Expr.relabel_relabel consequent,
      Expr.relabel_relabel alternate]
    rfl
  | .sequence expressions _ => congrArg (Expr.sequence · _) (relabelList_relabel expressions)
  | .arrow lambda => congrArg Expr.arrow (Lambda.relabel_relabel lambda)
  | .function lambda => congrArg Expr.function (Lambda.relabel_relabel lambda)

theorem relabelList_relabel : ∀ es : List Expr,
    relabelList s (relabelList r es) = relabelList (r.followedBy s) es
  | [] => rfl
  | e :: es => by simp only [relabelList, Expr.relabel_relabel e, relabelList_relabel es]

theorem Property.relabel_relabel : ∀ p : Property,
    (p.relabel r).relabel s = p.relabel (r.followedBy s)
  | ⟨key, value, _, _, _⟩ => by
    simp only [Property.relabel, Expr.relabel_relabel key, Expr.relabel_relabel value]
    rfl

theorem relabelProperties_relabel : ∀ ps : List Property,
    relabelProperties s (relabelProperties r ps) = relabelProperties (r.followedBy s) ps
  | [] => rfl
  | p :: ps => by
    simp only [relabelProperties, Property.relabel_relabel p, relabelProperties_relabel ps]

theorem Lambda.relabel_relabel : ∀ f : Lambda,
    (f.relabel r).relabel s = f.relabel (r.followedBy s)
  | ⟨id, params, body, _⟩ => by
    simp only [Lambda.relabel, relabelParams_relabel params, Body.relabel_relabel body]
    cases id <;> rfl

theorem Param.relabel_relabel : ∀ p : Param,
    (p.relabel r).relabel s = p.relabel (r.followedBy s)
  | .plain _ => rfl
  | .withDefault _ value _ => congrArg (Param.withDefault _ · _) (Expr.relabel_relabel value)

theorem relabelParams_relabel : ∀ ps : List Param,
    relabelParams s (relabelParams r ps) = relabelParams (r.followedBy s) ps
  | [] => rfl
  | p :: ps => by simp only [relabelParams, Param.relabel_relabel p, relabelParams_relabel ps]

theorem Body.relabel_relabel : ∀ b : Body,
    (b.relabel r).relabel s = b.relabel (r.followedBy s)
  | .expression value => congrArg Body.expression (Expr.relabel_relabel value)
  | .block statements _ => congrArg (Body.block · _) (relabelStatements_relabel statements)

theorem Statement.relabel_relabel : ∀ t : Statement,
    (t.relabel r).relabel s = t.relabel (r.followedBy s)
  | .expression value _ => congrArg (Statement.expression · _) (Expr.relabel_relabel value)
  | .return none _ => rfl
  | .return (some argument) _ =>
    congrArg (fun e => Statement.return (some e) _) (Expr.relabel_relabel argument)
  | .declaration lambda => congrArg Statement.declaration (Lambda.relabel_relabel lambda)

theorem relabelStatements_relabel : ∀ ss : List Statement,
    relabelStatements s (relabelStatements r ss) = relabelStatements (r.followedBy s) ss
  | [] => rfl
  | t :: ss => by
    simp only [relabelStatements, Statement.relabel_relabel t, relabelStatements_relabel ss]

end

theorem Program.relabel_relabel (p : Program) :
    (p.relabel r).relabel s = p.relabel (r.followedBy s) := by
  simp only [relabel, relabelStatements_relabel]
  rfl

end

end TemplateExpr
