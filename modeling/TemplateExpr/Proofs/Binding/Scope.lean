/-
  The scope rule, stated without a walk: which identifiers are classified depends on nothing but
  the names that the functions around them bind, and on what it means to stand where they stand.

  `Program.scoped` is the rule, a transformation of trees that hands the bound names down.
  `Program.classify` keeps a chain of nodes instead, pushes and pops it, and overwrites its
  nearest entry between the parts of a node.

  * `run_visitExpr` and its companions: every visit answers what the rule says of the chain that
    it was started with, and gives that chain back.
  * `Program.classify_eq_scoped`: on every program the walk and the rule agree.
-/
import TemplateExpr.Binding.Classify
import Mathlib.Data.Finset.Basic

namespace TemplateExpr

/-- What it means for a name to stand at a place of the tree. -/
inductive Standing where
  /-- The name is used. -/
  | use
  /-- The name binds a parameter, is assigned to, or is all that stands between the brackets of
      a member. -/
  | target
deriving DecidableEq

/-! ## The rule -/

/-- The rule for one identifier, when the functions around it bind the names `bound`. -/
def Identifier.scoped (v : Vocabulary) (bound : Finset String) (standing : Standing)
    (id : Identifier) : Identifier :=
  if standing = .use ∧ id.name ∉ v.globals ∧ id.name ∉ bound then
    { name := (resolve v.helpers id.name).2
      context := some (resolve v.helpers id.name).1
      span := id.span }
  else id

mutual

/-- The rule for an expression. Only the identifier that the whole expression is has the
    standing of the expression; whatever is further inside has its own. -/
def Expr.scoped (v : Vocabulary) (bound : Finset String) (standing : Standing) : Expr → Expr
  | .identifier id => .identifier (id.scoped v bound standing)
  | .literal value raw span => .literal value raw span
  | .this span => .this span
  | .array elements span => .array (scopedList v bound elements) span
  | .object properties span => .object (scopedProperties v bound properties) span
  | .member object property computed optional span =>
    .member (object.scoped v bound .use)
      (if computed then property.scoped v bound .target else property) computed optional span
  | .call callee arguments optional span =>
    .call (callee.scoped v bound .use) (scopedList v bound arguments) optional span
  | .unary op argument span => .unary op (argument.scoped v bound .use) span
  | .update op leading argument span => .update op leading (argument.scoped v bound .use) span
  | .binary op left right span =>
    .binary op (left.scoped v bound .use) (right.scoped v bound .use) span
  | .logical op left right span =>
    .logical op (left.scoped v bound .use) (right.scoped v bound .use) span
  | .conditional test consequent alternate span =>
    .conditional (test.scoped v bound .use) (consequent.scoped v bound .use)
      (alternate.scoped v bound .use) span
  | .assignment op left right span =>
    .assignment op (left.scoped v bound .target) (right.scoped v bound .use) span
  | .sequence expressions span => .sequence (scopedList v bound expressions) span
  | .arrow lambda => .arrow (lambda.scoped v bound)
  | .function lambda => .function (lambda.scoped v bound)

def scopedList (v : Vocabulary) (bound : Finset String) : List Expr → List Expr
  | [] => []
  | e :: es => e.scoped v bound .use :: scopedList v bound es

/-- A key that is not computed is no place of a reference. -/
def Property.scoped (v : Vocabulary) (bound : Finset String) : Property → Property
  | ⟨key, value, computed, shorthand, span⟩ =>
    ⟨if computed then key.scoped v bound .use else key, value.scoped v bound .use,
      computed, shorthand, span⟩

def scopedProperties (v : Vocabulary) (bound : Finset String) : List Property → List Property
  | [] => []
  | p :: ps => p.scoped v bound :: scopedProperties v bound ps

/-- The names of the parameters are bound in their default values and in the body. -/
def Lambda.scoped (v : Vocabulary) (bound : Finset String) : Lambda → Lambda
  | ⟨id, params, body, span⟩ =>
    let bound := bound ∪ (params.map (·.binding.name)).toFinset
    ⟨id, scopedParams v bound params, body.scoped v bound, span⟩

def Param.scoped (v : Vocabulary) (bound : Finset String) : Param → Param
  | .plain id => .plain (id.scoped v bound .target)
  | .withDefault id value span =>
    .withDefault (id.scoped v bound .target) (value.scoped v bound .use) span

def scopedParams (v : Vocabulary) (bound : Finset String) : List Param → List Param
  | [] => []
  | p :: ps => p.scoped v bound :: scopedParams v bound ps

def Body.scoped (v : Vocabulary) (bound : Finset String) : Body → Body
  | .expression value => .expression (value.scoped v bound .use)
  | .block statements span => .block (scopedStatements v bound statements) span

def Statement.scoped (v : Vocabulary) (bound : Finset String) : Statement → Statement
  | .expression value span => .expression (value.scoped v bound .use) span
  | .return none span => .return none span
  | .return (some argument) span => .return (some (argument.scoped v bound .use)) span
  | .declaration lambda => .declaration (lambda.scoped v bound)

def scopedStatements (v : Vocabulary) (bound : Finset String) : List Statement → List Statement
  | [] => []
  | s :: ss => s.scoped v bound :: scopedStatements v bound ss

end

/-- The rule for a program: no name is bound around it. -/
def Program.scoped (v : Vocabulary) (program : Program) : Program :=
  { program with body := scopedStatements v ∅ program.body }

namespace Binding

/-! ## What a chain says of a place -/

/-- The names that a node binds. -/
def Enclosing.names : Enclosing → List String
  | .function params => params
  | .member | .assignment | .other => []

/-- The names that the nodes of a chain bind. -/
def bound : List Ancestor → Finset String
  | [] => ∅
  | a :: outer => bound outer ∪ a.node.names.toFinset

/-- What it means to stand where a chain leads. -/
def standing : List Ancestor → Standing
  | [] => .use
  | a :: _ => if a.isTarget then .target else .use

theorem binds_iff (a : Ancestor) (name : String) :
    a.binds name = true ↔ name ∈ a.node.names := by
  cases a with
  | mk node role => cases node <;> simp [Ancestor.binds, Enclosing.names]

theorem mem_bound (frames : List Ancestor) (name : String) :
    name ∈ bound frames ↔ frames.any (·.binds name) = true := by
  induction frames with
  | nil => simp [bound]
  | cons a outer ih =>
    rw [bound, Finset.mem_union, ih, List.mem_toFinset, ← binds_iff, List.any_cons,
      Bool.or_eq_true, or_comm]

theorem excludes_iff (frames : List Ancestor) (name : String) :
    Ancestors.excludes ⟨frames⟩ name = true ↔
      standing frames = .target ∨ name ∈ bound frames := by
  cases frames with
  | nil => simp [Ancestors.excludes, standing, bound]
  | cons a outer =>
    rw [mem_bound, Ancestors.excludes, Bool.or_eq_true, standing]
    cases a.isTarget <;> simp

theorem bound_other (role : Role) (outer : List Ancestor) :
    bound (⟨.other, role⟩ :: outer) = bound outer := by
  simp [bound, Enclosing.names]

theorem bound_member (role : Role) (outer : List Ancestor) :
    bound (⟨.member, role⟩ :: outer) = bound outer := by
  simp [bound, Enclosing.names]

theorem bound_assignment (role : Role) (outer : List Ancestor) :
    bound (⟨.assignment, role⟩ :: outer) = bound outer := by
  simp [bound, Enclosing.names]

theorem bound_function (names : List String) (role : Role) (outer : List Ancestor) :
    bound (⟨.function names, role⟩ :: outer) = bound outer ∪ names.toFinset := rfl

theorem standing_other (role : Role) (outer : List Ancestor) :
    standing (⟨.other, role⟩ :: outer) = .use := rfl

theorem standing_object (outer : List Ancestor) :
    standing (⟨.member, .object⟩ :: outer) = .use := rfl

theorem standing_property (outer : List Ancestor) :
    standing (⟨.member, .property⟩ :: outer) = .target := rfl

theorem standing_left (outer : List Ancestor) :
    standing (⟨.assignment, .left⟩ :: outer) = .target := rfl

theorem standing_right (outer : List Ancestor) :
    standing (⟨.assignment, .right⟩ :: outer) = .use := rfl

theorem standing_param (names : List String) (outer : List Ancestor) :
    standing (⟨.function names, .param⟩ :: outer) = .target := rfl

theorem standing_body (names : List String) (outer : List Ancestor) :
    standing (⟨.function names, .body⟩ :: outer) = .use := rfl

/-! ## Single steps of the walk -/

theorem run_pure {α : Type} (a : α) (chain : Ancestors) :
    StateT.run (pure a : Walk α) chain = (a, chain) := rfl

theorem run_bind {α β : Type} (first : Walk α) (more : α → Walk β) (chain : Ancestors) :
    StateT.run (first >>= more) chain =
      StateT.run (more (StateT.run first chain).1) (StateT.run first chain).2 := rfl

theorem run_through (role : Role) (a : Ancestor) (outer : List Ancestor) :
    StateT.run (Walk.through role) ⟨a :: outer⟩ = ((), ⟨{ a with role } :: outer⟩) := rfl

theorem run_inside {α : Type} (node : Enclosing) (visit : Walk α) (frames : List Ancestor) :
    StateT.run (Walk.inside node visit) ⟨frames⟩ =
      ((StateT.run visit ⟨⟨node, .other⟩ :: frames⟩).1,
        (StateT.run visit ⟨⟨node, .other⟩ :: frames⟩).2.pop) := rfl

/-- A visit that ends with its node on top of the chain leaves the chain as it was. -/
theorem run_inside_of {α : Type} {node : Enclosing} {visit : Walk α} {frames : List Ancestor}
    {result : α} (role : Role)
    (h : StateT.run visit ⟨⟨node, .other⟩ :: frames⟩ = (result, ⟨⟨node, role⟩ :: frames⟩)) :
    StateT.run (Walk.inside node visit) ⟨frames⟩ = (result, ⟨frames⟩) := by
  rw [run_inside, h]
  rfl

/-- The test of the walk is the condition of the rule. -/
theorem keeps_iff (v : Vocabulary) (name : String) (frames : List Ancestor) :
    (v.globals.contains name || Ancestors.excludes ⟨frames⟩ name) = true ↔
      ¬ (standing frames = .use ∧ name ∉ v.globals ∧ name ∉ bound frames) := by
  rw [Bool.or_eq_true, Names.contains_eq_true_iff, excludes_iff]
  cases standing frames <;> simp
  tauto

theorem run_visitIdentifier (v : Vocabulary) (id : Identifier) (frames : List Ancestor) :
    StateT.run (visitIdentifier v id) ⟨frames⟩ =
      (id.scoped v (bound frames) (standing frames), ⟨frames⟩) := by
  have keeps := keeps_iff v id.name frames
  change StateT.run (if (v.globals.contains id.name || Ancestors.excludes ⟨frames⟩ id.name) = true
    then pure id else pure { id with
      name := (resolve v.helpers id.name).2
      context := some (resolve v.helpers id.name).1 }) (⟨frames⟩ : Ancestors) = _
  unfold Identifier.scoped
  by_cases h : standing frames = .use ∧ id.name ∉ v.globals ∧ id.name ∉ bound frames
  · rw [if_pos h, if_neg (fun kept => keeps.1 kept h)]
    rfl
  · rw [if_neg h, if_pos (keeps.2 h)]
    rfl

/-! ## Visits -/

mutual

/-- The visit of an expression answers the rule and gives the chain back. -/
theorem run_visitExpr (v : Vocabulary) : ∀ (e : Expr) (frames : List Ancestor),
    StateT.run (visitExpr v e) ⟨frames⟩ = (e.scoped v (bound frames) (standing frames), ⟨frames⟩)
  | .identifier id, frames => by
    simp only [visitExpr, Expr.scoped, run_bind, run_pure, run_visitIdentifier]
  | .literal value raw span, frames => rfl
  | .this span, frames => rfl
  | .array elements span, frames => by
    rw [visitExpr, Expr.scoped]
    apply run_inside_of .other
    simp only [run_bind, run_pure, run_visitList v elements]
  | .object properties span, frames => by
    rw [visitExpr, Expr.scoped]
    apply run_inside_of .other
    simp only [run_bind, run_pure, run_visitProperties v properties]
  | .member object property true optional span, frames => by
    rw [visitExpr, Expr.scoped]
    apply run_inside_of .property
    simp only [run_bind, run_pure, run_through, if_true, run_visitExpr v object,
      run_visitExpr v property, bound_member, standing_object, standing_property]
  | .member object property false optional span, frames => by
    rw [visitExpr, Expr.scoped]
    apply run_inside_of .object
    simp only [run_bind, run_pure, run_through, Bool.false_eq_true, if_false,
      run_visitExpr v object, bound_member, standing_object]
  | .call callee arguments optional span, frames => by
    rw [visitExpr, Expr.scoped]
    apply run_inside_of .other
    simp only [run_bind, run_pure, run_through, run_visitExpr v callee,
      run_visitList v arguments, bound_other, standing_other]
  | .unary op argument span, frames => by
    rw [visitExpr, Expr.scoped]
    apply run_inside_of .other
    simp only [run_bind, run_pure, run_through, run_visitExpr v argument, bound_other,
      standing_other]
  | .update op leading argument span, frames => by
    rw [visitExpr, Expr.scoped]
    apply run_inside_of .other
    simp only [run_bind, run_pure, run_through, run_visitExpr v argument, bound_other,
      standing_other]
  | .binary op left right span, frames => by
    rw [visitExpr, Expr.scoped]
    apply run_inside_of .right
    simp only [run_bind, run_pure, run_through, run_visitExpr v left, run_visitExpr v right,
      bound_other, standing_other]
  | .logical op left right span, frames => by
    rw [visitExpr, Expr.scoped]
    apply run_inside_of .right
    simp only [run_bind, run_pure, run_through, run_visitExpr v left, run_visitExpr v right,
      bound_other, standing_other]
  | .conditional test consequent alternate span, frames => by
    rw [visitExpr, Expr.scoped]
    apply run_inside_of .other
    simp only [run_bind, run_pure, run_through, run_visitExpr v test,
      run_visitExpr v consequent, run_visitExpr v alternate, bound_other, standing_other]
  | .assignment op left right span, frames => by
    rw [visitExpr, Expr.scoped]
    apply run_inside_of .right
    simp only [run_bind, run_pure, run_through, run_visitExpr v left, run_visitExpr v right,
      bound_assignment, standing_left, standing_right]
  | .sequence expressions span, frames => by
    rw [visitExpr, Expr.scoped]
    apply run_inside_of .other
    simp only [run_bind, run_pure, run_visitList v expressions]
  | .arrow lambda, frames => by
    simp only [visitExpr, Expr.scoped, run_bind, run_pure, run_visitLambda v lambda]
  | .function lambda, frames => by
    simp only [visitExpr, Expr.scoped, run_bind, run_pure, run_visitLambda v lambda]

/-- The items of a list are visited with the node around them on top of the chain. -/
theorem run_visitList (v : Vocabulary) : ∀ (es : List Expr) (outer : List Ancestor),
    StateT.run (visitList v es) ⟨⟨.other, .other⟩ :: outer⟩ =
      (scopedList v (bound outer) es, ⟨⟨.other, .other⟩ :: outer⟩)
  | [], outer => rfl
  | e :: es, outer => by
    simp only [visitList, scopedList, run_bind, run_pure, run_through, run_visitExpr v e,
      run_visitList v es, bound_other, standing_other]

theorem run_visitProperty (v : Vocabulary) : ∀ (p : Property) (outer : List Ancestor),
    StateT.run (visitProperty v p) ⟨⟨.other, .other⟩ :: outer⟩ =
      (p.scoped v (bound outer), ⟨⟨.other, .other⟩ :: outer⟩)
  | ⟨key, value, true, shorthand, span⟩, outer => by
    simp only [visitProperty, Property.scoped, if_true, run_bind, run_pure, run_through,
      run_visitExpr v key, run_visitExpr v value, bound_other, standing_other]
  | ⟨key, value, false, shorthand, span⟩, outer => by
    simp only [visitProperty, Property.scoped, Bool.false_eq_true, if_false, run_bind, run_pure,
      run_through, run_visitExpr v value, bound_other, standing_other]

theorem run_visitProperties (v : Vocabulary) : ∀ (ps : List Property) (outer : List Ancestor),
    StateT.run (visitProperties v ps) ⟨⟨.other, .other⟩ :: outer⟩ =
      (scopedProperties v (bound outer) ps, ⟨⟨.other, .other⟩ :: outer⟩)
  | [], outer => rfl
  | p :: ps, outer => by
    simp only [visitProperties, scopedProperties, run_bind, run_pure, run_visitProperty v p,
      run_visitProperties v ps]

theorem run_visitLambda (v : Vocabulary) : ∀ (lambda : Lambda) (frames : List Ancestor),
    StateT.run (visitLambda v lambda) ⟨frames⟩ = (lambda.scoped v (bound frames), ⟨frames⟩)
  | ⟨id, params, body, span⟩, frames => by
    obtain ⟨role, h⟩ := run_visitParams v params (params.map (·.binding.name)) .other frames
    rw [visitLambda, Lambda.scoped]
    apply run_inside_of .body
    simp only [run_bind, run_pure, run_through, h, run_visitBody v body]

theorem run_visitParam (v : Vocabulary) :
    ∀ (p : Param) (names : List String) (outer : List Ancestor),
      StateT.run (visitParam v p) ⟨⟨.function names, .param⟩ :: outer⟩ =
        (p.scoped v (bound outer ∪ names.toFinset), ⟨⟨.function names, .param⟩ :: outer⟩)
  | .plain id, names, outer => by
    simp only [visitParam, Param.scoped, run_bind, run_pure, run_visitIdentifier,
      bound_function, standing_param]
  | .withDefault id value span, names, outer => by
    rw [visitParam, Param.scoped]
    apply run_inside_of .right
    simp only [run_bind, run_pure, run_through, run_visitIdentifier, run_visitExpr v value,
      bound_assignment, bound_function, standing_left, standing_right]

/-- Behind the parameters the function is on top of the chain as before, in a role that depends
    on whether there were any. -/
theorem run_visitParams (v : Vocabulary) :
    ∀ (ps : List Param) (names : List String) (role : Role) (outer : List Ancestor),
      ∃ role', StateT.run (visitParams v ps) ⟨⟨.function names, role⟩ :: outer⟩ =
        (scopedParams v (bound outer ∪ names.toFinset) ps, ⟨⟨.function names, role'⟩ :: outer⟩)
  | [], names, role, outer => ⟨role, rfl⟩
  | p :: ps, names, role, outer => by
    obtain ⟨role', h⟩ := run_visitParams v ps names .param outer
    refine ⟨role', ?_⟩
    simp only [visitParams, scopedParams, run_bind, run_pure, run_through, run_visitParam v p, h]

theorem run_visitBody (v : Vocabulary) :
    ∀ (body : Body) (names : List String) (outer : List Ancestor),
      StateT.run (visitBody v body) ⟨⟨.function names, .body⟩ :: outer⟩ =
        (body.scoped v (bound outer ∪ names.toFinset), ⟨⟨.function names, .body⟩ :: outer⟩)
  | .expression value, names, outer => by
    simp only [visitBody, Body.scoped, run_bind, run_pure, run_visitExpr v value,
      bound_function, standing_body]
  | .block statements span, names, outer => by
    simp only [visitBody, Body.scoped, run_bind, run_pure, run_visitStatements v statements,
      bound_function]

theorem run_visitStatement (v : Vocabulary) : ∀ (s : Statement) (frames : List Ancestor),
    StateT.run (visitStatement v s) ⟨frames⟩ = (s.scoped v (bound frames), ⟨frames⟩)
  | .expression value span, frames => by
    rw [visitStatement, Statement.scoped]
    apply run_inside_of .other
    simp only [run_bind, run_pure, run_through, run_visitExpr v value, bound_other,
      standing_other]
  | .return none span, frames => rfl
  | .return (some argument) span, frames => by
    rw [visitStatement, Statement.scoped]
    apply run_inside_of .other
    simp only [run_bind, run_pure, run_through, run_visitExpr v argument, bound_other,
      standing_other]
  | .declaration lambda, frames => by
    simp only [visitStatement, Statement.scoped, run_bind, run_pure, run_visitLambda v lambda]

theorem run_visitStatements (v : Vocabulary) : ∀ (ss : List Statement) (frames : List Ancestor),
    StateT.run (visitStatements v ss) ⟨frames⟩ =
      (scopedStatements v (bound frames) ss, ⟨frames⟩)
  | [], frames => rfl
  | s :: ss, frames => by
    simp only [visitStatements, scopedStatements, run_bind, run_pure, run_visitStatement v s,
      run_visitStatements v ss]

end

end Binding

/-! ## The walk and the rule -/

open Binding

theorem Program.body_classify (v : Vocabulary) (program : Program) :
    (program.classify v).body = scopedStatements v ∅ program.body := by
  have run : StateT.run (Walk.inside .other (visitStatements v program.body)) ⟨[]⟩ =
      (scopedStatements v ∅ program.body, ⟨[]⟩) :=
    run_inside_of .other (run_visitStatements v program.body [⟨.other, .other⟩])
  exact congrArg Prod.fst run

/-- Classification is the scope rule: on every program, whatever its shape, the walk with its
    chain of nodes changes the identifiers that the rule changes, in the way of the rule, and
    nothing else. -/
theorem Program.classify_eq_scoped (v : Vocabulary) (program : Program) :
    program.classify v = program.scoped v := by
  have body := program.body_classify v
  rw [Program.scoped, ← body]
  rfl

/-- An expression that stands alone follows the same rule. -/
theorem Expr.classify_alone (v : Vocabulary) (e : Expr) : e.classify v = e.scoped v ∅ .use :=
  congrArg Prod.fst (run_visitExpr v e [])

end TemplateExpr
