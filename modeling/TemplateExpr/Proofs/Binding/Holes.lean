/-
  Where an expression stands does not matter to the names in it, as long as no function around it
  binds one of them: it is classified in a program as it is alone. The walk starts on an empty
  chain for an expression alone, below two neutral nodes for a statement of a program, and below
  one function more for each body around it.

  * `Expr.scoped_congr`: the rule asks of the bound names only which names of the tree are among
    them.
  * `Expr.classify_placed`: an expression as a statement of its own or behind `return`, in function
    bodies of any depth, and wherever else it is used.
-/
import Mathlib.Data.Finset.Lattice.Lemmas
import TemplateExpr.Proofs.Binding.Scope

namespace TemplateExpr
open Source (Span)

/-! ## The names of a tree -/

mutual

/-- The names of all identifiers of an expression, whatever they stand for. -/
def Expr.names : Expr → Finset String
  | .identifier id => {id.name}
  | .literal _ _ _ | .this _ => ∅
  | .array elements _ => namesOfList elements
  | .object properties _ => namesOfProperties properties
  | .member object property _ _ _ => object.names ∪ property.names
  | .call callee arguments _ _ => callee.names ∪ namesOfList arguments
  | .unary _ argument _ | .update _ _ argument _ => argument.names
  | .binary _ left right _ | .logical _ left right _ | .assignment _ left right _ =>
    left.names ∪ right.names
  | .conditional test consequent alternate _ => test.names ∪ consequent.names ∪ alternate.names
  | .sequence expressions _ => namesOfList expressions
  | .arrow lambda | .function lambda => lambda.names

def namesOfList : List Expr → Finset String
  | [] => ∅
  | e :: es => e.names ∪ namesOfList es

def Property.names : Property → Finset String
  | ⟨key, value, _, _, _⟩ => key.names ∪ value.names

def namesOfProperties : List Property → Finset String
  | [] => ∅
  | p :: ps => p.names ∪ namesOfProperties ps

def Lambda.names : Lambda → Finset String
  | ⟨id, params, body, _⟩ =>
    (id.toList.map (·.name)).toFinset ∪ namesOfParams params ∪ body.names

def Param.names : Param → Finset String
  | .plain id => {id.name}
  | .withDefault id value _ => {id.name} ∪ value.names

def namesOfParams : List Param → Finset String
  | [] => ∅
  | p :: ps => p.names ∪ namesOfParams ps

def Body.names : Body → Finset String
  | .expression value => value.names
  | .block statements _ => namesOfStatements statements

def Statement.names : Statement → Finset String
  | .expression value _ => value.names
  | .return none _ => ∅
  | .return (some argument) _ => argument.names
  | .declaration lambda => lambda.names

def namesOfStatements : List Statement → Finset String
  | [] => ∅
  | s :: ss => s.names ∪ namesOfStatements ss

end

/-! ## Bound names that a tree does not have -/

/-- The same of the names are bound. -/
def AgreeOn (names bound bound' : Finset String) : Prop :=
  ∀ name ∈ names, name ∈ bound ↔ name ∈ bound'

namespace AgreeOn

variable {names others bound bound' : Finset String}

theorem left (h : AgreeOn (names ∪ others) bound bound') : AgreeOn names bound bound' :=
  fun name hm => h name (Finset.mem_union_left _ hm)

theorem right (h : AgreeOn (names ∪ others) bound bound') : AgreeOn others bound bound' :=
  fun name hm => h name (Finset.mem_union_right _ hm)

/-- A function binds the names of its parameters on both sides. -/
theorem union (h : AgreeOn names bound bound') (params : Finset String) :
    AgreeOn names (bound ∪ params) (bound' ∪ params) := by
  intro name hm
  rw [Finset.mem_union, Finset.mem_union, h name hm]

end AgreeOn

section
variable (v : Vocabulary) {bound bound' : Finset String}

theorem Identifier.scoped_congr {id : Identifier} (h : AgreeOn {id.name} bound bound')
    (standing : Standing) : id.scoped v bound standing = id.scoped v bound' standing := by
  have hname := h id.name (Finset.mem_singleton_self _)
  simp only [Identifier.scoped, hname]

mutual

/-- The rule asks of the bound names only which names of the tree are among them. -/
theorem Expr.scoped_congr {bound bound' : Finset String} (standing : Standing) : ∀ e : Expr,
    AgreeOn e.names bound bound' → e.scoped v bound standing = e.scoped v bound' standing
  | .identifier _, h => congrArg Expr.identifier (Identifier.scoped_congr v h standing)
  | .literal _ _ _, _ | .this _, _ => rfl
  | .array elements _, h => congrArg (Expr.array · _) (scopedList_congr elements h)
  | .object properties _, h => congrArg (Expr.object · _) (scopedProperties_congr properties h)
  | .member object property computed _ _, h => by
    rw [Expr.scoped, Expr.scoped, Expr.scoped_congr .use object h.left,
      Expr.scoped_congr .target property h.right]
  | .call callee arguments _ _, h => by
    rw [Expr.scoped, Expr.scoped, Expr.scoped_congr .use callee h.left,
      scopedList_congr arguments h.right]
  | .unary _ argument _, h => congrArg (Expr.unary _ · _) (Expr.scoped_congr .use argument h)
  | .update _ _ argument _, h =>
    congrArg (Expr.update _ _ · _) (Expr.scoped_congr .use argument h)
  | .binary _ left right _, h | .logical _ left right _, h => by
    rw [Expr.scoped, Expr.scoped, Expr.scoped_congr .use left h.left,
      Expr.scoped_congr .use right h.right]
  | .assignment _ left right _, h => by
    rw [Expr.scoped, Expr.scoped, Expr.scoped_congr .target left h.left,
      Expr.scoped_congr .use right h.right]
  | .conditional test consequent alternate _, h => by
    rw [Expr.scoped, Expr.scoped, Expr.scoped_congr .use test h.left.left,
      Expr.scoped_congr .use consequent h.left.right, Expr.scoped_congr .use alternate h.right]
  | .sequence expressions _, h => congrArg (Expr.sequence · _) (scopedList_congr expressions h)
  | .arrow lambda, h => congrArg Expr.arrow (Lambda.scoped_congr lambda h)
  | .function lambda, h => congrArg Expr.function (Lambda.scoped_congr lambda h)

theorem scopedList_congr {bound bound' : Finset String} : ∀ es : List Expr,
    AgreeOn (namesOfList es) bound bound' → scopedList v bound es = scopedList v bound' es
  | [], _ => rfl
  | e :: es, h => by
    rw [scopedList, scopedList, Expr.scoped_congr .use e h.left, scopedList_congr es h.right]

theorem Property.scoped_congr {bound bound' : Finset String} : ∀ p : Property,
    AgreeOn p.names bound bound' → p.scoped v bound = p.scoped v bound'
  | ⟨key, value, _, _, _⟩, h => by
    rw [Property.scoped, Property.scoped, Expr.scoped_congr .use key h.left,
      Expr.scoped_congr .use value h.right]

theorem scopedProperties_congr {bound bound' : Finset String} : ∀ ps : List Property,
    AgreeOn (namesOfProperties ps) bound bound' →
      scopedProperties v bound ps = scopedProperties v bound' ps
  | [], _ => rfl
  | p :: ps, h => by
    rw [scopedProperties, scopedProperties, Property.scoped_congr p h.left,
      scopedProperties_congr ps h.right]

theorem Lambda.scoped_congr {bound bound' : Finset String} : ∀ f : Lambda,
    AgreeOn f.names bound bound' → f.scoped v bound = f.scoped v bound'
  | ⟨_, params, body, _⟩, h => by
    rw [Lambda.scoped, Lambda.scoped, scopedParams_congr params (h.left.right.union _),
      Body.scoped_congr body (h.right.union _)]

theorem Param.scoped_congr {bound bound' : Finset String} : ∀ p : Param,
    AgreeOn p.names bound bound' → p.scoped v bound = p.scoped v bound'
  | .plain _, h => congrArg Param.plain (Identifier.scoped_congr v h .target)
  | .withDefault _ value _, h => by
    rw [Param.scoped, Param.scoped, Identifier.scoped_congr v h.left .target,
      Expr.scoped_congr .use value h.right]

theorem scopedParams_congr {bound bound' : Finset String} : ∀ ps : List Param,
    AgreeOn (namesOfParams ps) bound bound' → scopedParams v bound ps = scopedParams v bound' ps
  | [], _ => rfl
  | p :: ps, h => by
    rw [scopedParams, scopedParams, Param.scoped_congr p h.left, scopedParams_congr ps h.right]

theorem Body.scoped_congr {bound bound' : Finset String} : ∀ b : Body,
    AgreeOn b.names bound bound' → b.scoped v bound = b.scoped v bound'
  | .expression value, h => congrArg Body.expression (Expr.scoped_congr .use value h)
  | .block statements _, h => congrArg (Body.block · _) (scopedStatements_congr statements h)

theorem Statement.scoped_congr {bound bound' : Finset String} : ∀ s : Statement,
    AgreeOn s.names bound bound' → s.scoped v bound = s.scoped v bound'
  | .expression value _, h => congrArg (Statement.expression · _) (Expr.scoped_congr .use value h)
  | .return none _, _ => rfl
  | .return (some argument) _, h =>
    congrArg (fun e => Statement.return (some e) _) (Expr.scoped_congr .use argument h)
  | .declaration lambda, h => congrArg Statement.declaration (Lambda.scoped_congr lambda h)

theorem scopedStatements_congr {bound bound' : Finset String} : ∀ ss : List Statement,
    AgreeOn (namesOfStatements ss) bound bound' →
      scopedStatements v bound ss = scopedStatements v bound' ss
  | [], _ => rfl
  | s :: ss, h => by
    rw [scopedStatements, scopedStatements, Statement.scoped_congr s h.left,
      scopedStatements_congr ss h.right]

end

theorem scopedStatements_append (ss ts : List Statement) :
    scopedStatements v bound (ss ++ ts) =
      scopedStatements v bound ss ++ scopedStatements v bound ts := by
  induction ss with
  | nil => rfl
  | cons s ss ih => rw [List.cons_append, scopedStatements, ih, scopedStatements, List.cons_append]

end

/-! ## Expressions in function bodies -/

/-- How a function is a statement. -/
inductive Lambda.Form where
  | declaration
  | arrow (span : Span)
  | function (span : Span)

def Lambda.Form.statement : Lambda.Form → Lambda → Statement
  | declaration, lambda => .declaration lambda
  | arrow span, lambda => .expression (.arrow lambda) span
  | function span, lambda => .expression (.function lambda) span

/-- A statement with a place for an expression: the expression by itself, the expression behind
    `return`, or a function with such a statement among those of its body. -/
inductive Hole where
  | expression (span : Span)
  | return (span : Span)
  | body (form : Lambda.Form) (id : Option Identifier) (params : List Param)
      (before : List Statement) (inner : Hole) (behind : List Statement) (block span : Span)

/-- The scope rule for what stands around the place. -/
def Hole.scoped (v : Vocabulary) (bound : Finset String) : Hole → Hole
  | .expression span => .expression span
  | .return span => .return span
  | .body form id params before inner behind block span =>
    let bound := bound ∪ (params.map (·.binding.name)).toFinset
    .body form id (scopedParams v bound params) (scopedStatements v bound before)
      (inner.scoped v bound) (scopedStatements v bound behind) block span

namespace Hole

/-- The statement with the expression in its place. -/
def fill : Hole → Expr → Statement
  | expression span, e => .expression e span
  | .return span, e => .return (some e) span
  | body form id params before inner behind block span, e =>
    form.statement ⟨id, params, .block (before ++ inner.fill e :: behind) block, span⟩

/-- The names that the functions around the place bind. -/
def paramNames : Hole → Finset String
  | expression _ | .return _ => ∅
  | body _ _ params _ inner _ _ _ => (params.map (·.binding.name)).toFinset ∪ inner.paramNames

variable (v : Vocabulary)

theorem scoped_statement (bound : Finset String) (form : Lambda.Form) (lambda : Lambda) :
    (form.statement lambda).scoped v bound = form.statement (lambda.scoped v bound) := by
  cases form <;> rfl

/-- The expression in its place follows the rule with all names that are bound around it. -/
theorem scoped_fill (e : Expr) (hole : Hole) (bound : Finset String) :
    (hole.fill e).scoped v bound =
      (hole.scoped v bound).fill (e.scoped v (bound ∪ hole.paramNames) .use) := by
  induction hole generalizing bound with
  | expression span => rw [paramNames, Finset.union_empty]; rfl
  | «return» span => rw [paramNames, Finset.union_empty]; rfl
  | body form id params before inner behind block span ih =>
    rw [fill, scoped_statement, Lambda.scoped, Body.scoped, scopedStatements_append,
      scopedStatements, ih, paramNames, ← Finset.union_assoc]
    rfl

end Hole

open Binding

/-- The walk comes to an expression anywhere in a tree, and classifies it as it is alone. -/
theorem Expr.run_visit_of_free (v : Vocabulary) (e : Expr) {frames : List Ancestor}
    (hs : standing frames = .use) (hfree : ∀ name ∈ bound frames, name ∉ e.names) :
    StateT.run (visitExpr v e) ⟨frames⟩ = (e.classify v, ⟨frames⟩) := by
  have hagree : AgreeOn e.names (bound frames) ∅ := by
    intro name hname
    have hnot : name ∉ bound frames := fun hm => hfree name hm hname
    simp [hnot]
  rw [run_visitExpr, hs, e.scoped_congr v .use hagree, e.classify_alone]

/-- In a hole of a program. -/
theorem Hole.classify_fill (v : Vocabulary) (e : Expr) (hole : Hole)
    (hfree : ∀ name ∈ hole.paramNames, name ∉ e.names) (before behind : List Statement)
    (whole : Span) (url : Option String) :
    (⟨before ++ hole.fill e :: behind, whole, url⟩ : Program).classify v =
      ⟨((⟨before, whole, url⟩ : Program).classify v).body ++
        (hole.scoped v ∅).fill (e.classify v) ::
        ((⟨behind, whole, url⟩ : Program).classify v).body, whole, url⟩ := by
  have hagree : AgreeOn e.names (∅ ∪ hole.paramNames) ∅ := by
    intro name hname
    have hnot : name ∉ hole.paramNames := fun hm => hfree name hm hname
    simp [hnot]
  rw [Program.body_classify, Program.body_classify, Program.classify_eq_scoped, Program.scoped,
    scopedStatements_append, scopedStatements, Hole.scoped_fill, e.scoped_congr v .use hagree,
    e.classify_alone]

/-- An expression is classified as it is alone wherever it is used and no function around it
    binds one of its names: as the only statement of a program, as a statement or behind `return`
    in function bodies of any depth, and at any other place that the walk comes to. -/
theorem Expr.classify_placed (v : Vocabulary) (e : Expr) :
    (∀ (span whole : Span) (url : Option String),
      (⟨[.expression e span], whole, url⟩ : Program).classify v =
        ⟨[.expression (e.classify v) span], whole, url⟩) ∧
    (∀ (hole : Hole) (before behind : List Statement) (whole : Span) (url : Option String),
      (∀ name ∈ hole.paramNames, name ∉ e.names) →
      (⟨before ++ hole.fill e :: behind, whole, url⟩ : Program).classify v =
        ⟨((⟨before, whole, url⟩ : Program).classify v).body ++
          (hole.scoped v ∅).fill (e.classify v) ::
          ((⟨behind, whole, url⟩ : Program).classify v).body, whole, url⟩) ∧
    ∀ frames : List Ancestor, standing frames = .use →
      (∀ name ∈ bound frames, name ∉ e.names) →
      StateT.run (visitExpr v e) ⟨frames⟩ = (e.classify v, ⟨frames⟩) := by
  refine ⟨fun span whole url => ?_, ?_, fun frames => e.run_visit_of_free v⟩
  · have hempty : ∀ name ∈ (Hole.expression span).paramNames, name ∉ e.names :=
      fun _ hm => absurd hm (Finset.notMem_empty _)
    exact (Hole.expression span).classify_fill v e hempty [] [] whole url
  · exact fun hole before behind whole url hfree =>
      hole.classify_fill v e hfree before behind whole url

/-- `x.a + #b` behind `return` in a function of `y` in the body of an arrow function of `z`. -/
theorem classify_placed_nested :
    let name (text : String) : Identifier := ⟨text, none, default⟩
    let v : Vocabulary := ⟨Names.defaultGlobals, .ofList ["x"]⟩
    let e : Expr := .binary "+"
      (.member (.identifier (name "x")) (.identifier (name "a")) false false default)
      (.identifier (name "#b")) default
    let hole : Hole := .body (.arrow default) none [.plain (name "z")] []
      (.body .declaration (some (name "f")) [.plain (name "y")] [] (.return default) []
        default default) [] default default
    (∀ name ∈ hole.paramNames, name ∉ e.names) ∧
      (⟨[hole.fill e], default, none⟩ : Program).classify v =
        ⟨[(hole.scoped v ∅).fill (e.classify v)], default, none⟩ ∧
      standing [⟨.function ["y"], .body⟩] = .use ∧
      (∀ name ∈ bound [⟨.function ["y"], .body⟩], name ∉ e.names) ∧
      StateT.run (visitExpr v e) ⟨[⟨.function ["y"], .body⟩]⟩ =
        (e.classify v, ⟨[⟨.function ["y"], .body⟩]⟩) := by
  intro name v e hole
  have hfree : ∀ name ∈ hole.paramNames, name ∉ e.names := by decide
  have hframe : ∀ name ∈ bound [⟨.function ["y"], .body⟩], name ∉ e.names := by decide
  exact ⟨hfree, (e.classify_placed v).2.1 hole [] [] default none hfree, rfl, hframe,
    (e.classify_placed v).2.2 _ rfl hframe⟩

end TemplateExpr
