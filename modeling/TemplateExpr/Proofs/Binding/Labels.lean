/-
  Classifying changes names and contexts and nothing else, so relabellings pass through it.

  * `relabel_scoped`: a relabelling that cannot tell a classified identifier from the same one
    before it was classified does not see that a tree was classified.
  * `scoped_relabel`: a relabelling that leaves names alone can be done before or after.
  * `Program.spans_classify`: classifying moves nothing.
-/
import TemplateExpr.Proofs.Binding.Scope
import TemplateExpr.Proofs.Places.Relocate
import TemplateExpr.Proofs.Tree.Spans

namespace TemplateExpr
open Source (Place Span)

/-! ## Relabelling what was classified -/

/-- The relabelling `s` maps the identifiers that come out of `r` and the same ones classified
    to the same label. -/
def Relabel.Hides (r s : Relabel) (v : Vocabulary) : Prop :=
  ∀ (bound : Finset String) (standing : Standing) (id : Identifier),
    s.onName ((r.onName id).scoped v bound standing) = s.onName (r.onName id)

section
variable {r s : Relabel} {v : Vocabulary}

mutual

theorem Expr.relabel_scoped (h : r.Hides s v) (bound : Finset String) (standing : Standing) :
    ∀ e : Expr, ((e.relabel r).scoped v bound standing).relabel s = (e.relabel r).relabel s
  | .identifier id => congrArg Expr.identifier (h bound standing id)
  | .literal _ _ _ | .this _ => rfl
  | .array elements _ => congrArg (Expr.array · _) (relabelList_scoped h bound elements)
  | .object properties _ =>
    congrArg (Expr.object · _) (relabelProperties_scoped h bound properties)
  | .member object property true _ _ => by
    simp only [Expr.relabel, Expr.scoped, if_true, Expr.relabel_scoped h bound .use object,
      Expr.relabel_scoped h bound .target property]
  | .member object property false _ _ => by
    simp only [Expr.relabel, Expr.scoped, Bool.false_eq_true, if_false,
      Expr.relabel_scoped h bound .use object]
  | .call callee arguments _ _ => by
    simp only [Expr.relabel, Expr.scoped, Expr.relabel_scoped h bound .use callee,
      relabelList_scoped h bound arguments]
  | .unary _ argument _ =>
    congrArg (Expr.unary _ · _) (Expr.relabel_scoped h bound .use argument)
  | .update _ _ argument _ =>
    congrArg (Expr.update _ _ · _) (Expr.relabel_scoped h bound .use argument)
  | .binary _ left right _ | .logical _ left right _ => by
    simp only [Expr.relabel, Expr.scoped, Expr.relabel_scoped h bound .use left,
      Expr.relabel_scoped h bound .use right]
  | .assignment _ left right _ => by
    simp only [Expr.relabel, Expr.scoped, Expr.relabel_scoped h bound .target left,
      Expr.relabel_scoped h bound .use right]
  | .conditional test consequent alternate _ => by
    simp only [Expr.relabel, Expr.scoped, Expr.relabel_scoped h bound .use test,
      Expr.relabel_scoped h bound .use consequent, Expr.relabel_scoped h bound .use alternate]
  | .sequence expressions _ =>
    congrArg (Expr.sequence · _) (relabelList_scoped h bound expressions)
  | .arrow lambda => congrArg Expr.arrow (Lambda.relabel_scoped h bound lambda)
  | .function lambda => congrArg Expr.function (Lambda.relabel_scoped h bound lambda)

theorem relabelList_scoped (h : r.Hides s v) (bound : Finset String) : ∀ es : List Expr,
    relabelList s (scopedList v bound (relabelList r es)) = relabelList s (relabelList r es)
  | [] => rfl
  | e :: es => by
    simp only [relabelList, scopedList, Expr.relabel_scoped h bound .use e,
      relabelList_scoped h bound es]

theorem Property.relabel_scoped (h : r.Hides s v) (bound : Finset String) : ∀ p : Property,
    ((p.relabel r).scoped v bound).relabel s = (p.relabel r).relabel s
  | ⟨key, value, true, _, _⟩ => by
    simp only [Property.relabel, Property.scoped, if_true,
      Expr.relabel_scoped h bound .use key, Expr.relabel_scoped h bound .use value]
  | ⟨key, value, false, _, _⟩ => by
    simp only [Property.relabel, Property.scoped, Bool.false_eq_true, if_false,
      Expr.relabel_scoped h bound .use value]

theorem relabelProperties_scoped (h : r.Hides s v) (bound : Finset String) :
    ∀ ps : List Property,
    relabelProperties s (scopedProperties v bound (relabelProperties r ps)) =
      relabelProperties s (relabelProperties r ps)
  | [] => rfl
  | p :: ps => by
    simp only [relabelProperties, scopedProperties, Property.relabel_scoped h bound p,
      relabelProperties_scoped h bound ps]

theorem Lambda.relabel_scoped (h : r.Hides s v) (bound : Finset String) : ∀ f : Lambda,
    ((f.relabel r).scoped v bound).relabel s = (f.relabel r).relabel s
  | ⟨_, params, body, _⟩ => by
    simp only [Lambda.relabel, Lambda.scoped, relabelParams_scoped h _ params,
      Body.relabel_scoped h _ body]

theorem Param.relabel_scoped (h : r.Hides s v) (bound : Finset String) : ∀ p : Param,
    ((p.relabel r).scoped v bound).relabel s = (p.relabel r).relabel s
  | .plain id => congrArg Param.plain (h bound .target id)
  | .withDefault id value _ => by
    simp only [Param.relabel, Param.scoped, h bound .target id,
      Expr.relabel_scoped h bound .use value]

theorem relabelParams_scoped (h : r.Hides s v) (bound : Finset String) : ∀ ps : List Param,
    relabelParams s (scopedParams v bound (relabelParams r ps)) =
      relabelParams s (relabelParams r ps)
  | [] => rfl
  | p :: ps => by
    simp only [relabelParams, scopedParams, Param.relabel_scoped h bound p,
      relabelParams_scoped h bound ps]

theorem Body.relabel_scoped (h : r.Hides s v) (bound : Finset String) : ∀ b : Body,
    ((b.relabel r).scoped v bound).relabel s = (b.relabel r).relabel s
  | .expression value => congrArg Body.expression (Expr.relabel_scoped h bound .use value)
  | .block statements _ =>
    congrArg (Body.block · _) (relabelStatements_scoped h bound statements)

theorem Statement.relabel_scoped (h : r.Hides s v) (bound : Finset String) : ∀ t : Statement,
    ((t.relabel r).scoped v bound).relabel s = (t.relabel r).relabel s
  | .expression value _ =>
    congrArg (Statement.expression · _) (Expr.relabel_scoped h bound .use value)
  | .return none _ => rfl
  | .return (some argument) _ =>
    congrArg (fun e => Statement.return (some e) _) (Expr.relabel_scoped h bound .use argument)
  | .declaration lambda => congrArg Statement.declaration (Lambda.relabel_scoped h bound lambda)

theorem relabelStatements_scoped (h : r.Hides s v) (bound : Finset String) :
    ∀ ss : List Statement,
    relabelStatements s (scopedStatements v bound (relabelStatements r ss)) =
      relabelStatements s (relabelStatements r ss)
  | [] => rfl
  | t :: ss => by
    simp only [relabelStatements, scopedStatements, Statement.relabel_scoped h bound t,
      relabelStatements_scoped h bound ss]

end

end

/-! ## Classifying what was relabelled -/

/-- The relabelling leaves names alone and does not mind whether it comes before or after
    the identifier is classified. -/
structure Relabel.KeepsNames (r : Relabel) (v : Vocabulary) : Prop where
  name : ∀ id, (r.onName id).name = id.name
  commutes : ∀ (bound : Finset String) (standing : Standing) (id : Identifier),
    (r.onName id).scoped v bound standing = r.onName (id.scoped v bound standing)

section
variable {r : Relabel} {v : Vocabulary}

theorem binding_relabel (h : r.KeepsNames v) (params : List Param) :
    (relabelParams r params).map (·.binding.name) = params.map (·.binding.name) := by
  rw [relabelParams_eq, List.map_map]
  refine List.map_congr_left fun p _ => ?_
  cases p <;> exact h.name _

mutual

theorem Expr.scoped_relabel (h : r.KeepsNames v) (bound : Finset String)
    (standing : Standing) : ∀ e : Expr,
    (e.relabel r).scoped v bound standing = (e.scoped v bound standing).relabel r
  | .identifier id => congrArg Expr.identifier (h.commutes bound standing id)
  | .literal _ _ _ | .this _ => rfl
  | .array elements _ => congrArg (Expr.array · _) (scopedList_relabel h bound elements)
  | .object properties _ =>
    congrArg (Expr.object · _) (scopedProperties_relabel h bound properties)
  | .member object property true _ _ => by
    simp only [Expr.relabel, Expr.scoped, if_true, Expr.scoped_relabel h bound .use object,
      Expr.scoped_relabel h bound .target property]
  | .member object property false _ _ => by
    simp only [Expr.relabel, Expr.scoped, Bool.false_eq_true, if_false,
      Expr.scoped_relabel h bound .use object]
  | .call callee arguments _ _ => by
    simp only [Expr.relabel, Expr.scoped, Expr.scoped_relabel h bound .use callee,
      scopedList_relabel h bound arguments]
  | .unary _ argument _ =>
    congrArg (Expr.unary _ · _) (Expr.scoped_relabel h bound .use argument)
  | .update _ _ argument _ =>
    congrArg (Expr.update _ _ · _) (Expr.scoped_relabel h bound .use argument)
  | .binary _ left right _ | .logical _ left right _ => by
    simp only [Expr.relabel, Expr.scoped, Expr.scoped_relabel h bound .use left,
      Expr.scoped_relabel h bound .use right]
  | .assignment _ left right _ => by
    simp only [Expr.relabel, Expr.scoped, Expr.scoped_relabel h bound .target left,
      Expr.scoped_relabel h bound .use right]
  | .conditional test consequent alternate _ => by
    simp only [Expr.relabel, Expr.scoped, Expr.scoped_relabel h bound .use test,
      Expr.scoped_relabel h bound .use consequent, Expr.scoped_relabel h bound .use alternate]
  | .sequence expressions _ =>
    congrArg (Expr.sequence · _) (scopedList_relabel h bound expressions)
  | .arrow lambda => congrArg Expr.arrow (Lambda.scoped_relabel h bound lambda)
  | .function lambda => congrArg Expr.function (Lambda.scoped_relabel h bound lambda)

theorem scopedList_relabel (h : r.KeepsNames v) (bound : Finset String) : ∀ es : List Expr,
    scopedList v bound (relabelList r es) = relabelList r (scopedList v bound es)
  | [] => rfl
  | e :: es => by
    simp only [relabelList, scopedList, Expr.scoped_relabel h bound .use e,
      scopedList_relabel h bound es]

theorem Property.scoped_relabel (h : r.KeepsNames v) (bound : Finset String) :
    ∀ p : Property, (p.relabel r).scoped v bound = (p.scoped v bound).relabel r
  | ⟨key, value, true, _, _⟩ => by
    simp only [Property.relabel, Property.scoped, if_true,
      Expr.scoped_relabel h bound .use key, Expr.scoped_relabel h bound .use value]
  | ⟨key, value, false, _, _⟩ => by
    simp only [Property.relabel, Property.scoped, Bool.false_eq_true, if_false,
      Expr.scoped_relabel h bound .use value]

theorem scopedProperties_relabel (h : r.KeepsNames v) (bound : Finset String) :
    ∀ ps : List Property,
    scopedProperties v bound (relabelProperties r ps) =
      relabelProperties r (scopedProperties v bound ps)
  | [] => rfl
  | p :: ps => by
    simp only [relabelProperties, scopedProperties, Property.scoped_relabel h bound p,
      scopedProperties_relabel h bound ps]

theorem Lambda.scoped_relabel (h : r.KeepsNames v) (bound : Finset String) : ∀ f : Lambda,
    (f.relabel r).scoped v bound = (f.scoped v bound).relabel r
  | ⟨_, params, body, _⟩ => by
    simp only [Lambda.relabel, Lambda.scoped, binding_relabel h params,
      scopedParams_relabel h _ params, Body.scoped_relabel h _ body]

theorem Param.scoped_relabel (h : r.KeepsNames v) (bound : Finset String) : ∀ p : Param,
    (p.relabel r).scoped v bound = (p.scoped v bound).relabel r
  | .plain id => congrArg Param.plain (h.commutes bound .target id)
  | .withDefault id value _ => by
    simp only [Param.relabel, Param.scoped, h.commutes bound .target id,
      Expr.scoped_relabel h bound .use value]

theorem scopedParams_relabel (h : r.KeepsNames v) (bound : Finset String) :
    ∀ ps : List Param,
    scopedParams v bound (relabelParams r ps) = relabelParams r (scopedParams v bound ps)
  | [] => rfl
  | p :: ps => by
    simp only [relabelParams, scopedParams, Param.scoped_relabel h bound p,
      scopedParams_relabel h bound ps]

theorem Body.scoped_relabel (h : r.KeepsNames v) (bound : Finset String) : ∀ b : Body,
    (b.relabel r).scoped v bound = (b.scoped v bound).relabel r
  | .expression value => congrArg Body.expression (Expr.scoped_relabel h bound .use value)
  | .block statements _ =>
    congrArg (Body.block · _) (scopedStatements_relabel h bound statements)

theorem Statement.scoped_relabel (h : r.KeepsNames v) (bound : Finset String) :
    ∀ t : Statement, (t.relabel r).scoped v bound = (t.scoped v bound).relabel r
  | .expression value _ =>
    congrArg (Statement.expression · _) (Expr.scoped_relabel h bound .use value)
  | .return none _ => rfl
  | .return (some argument) _ =>
    congrArg (fun e => Statement.return (some e) _) (Expr.scoped_relabel h bound .use argument)
  | .declaration lambda => congrArg Statement.declaration (Lambda.scoped_relabel h bound lambda)

theorem scopedStatements_relabel (h : r.KeepsNames v) (bound : Finset String) :
    ∀ ss : List Statement,
    scopedStatements v bound (relabelStatements r ss) =
      relabelStatements r (scopedStatements v bound ss)
  | [] => rfl
  | t :: ss => by
    simp only [relabelStatements, scopedStatements, Statement.scoped_relabel h bound t,
      scopedStatements_relabel h bound ss]

end

end

/-! ## Places and spans of what was classified -/

theorem Identifier.span_scoped (v : Vocabulary) (bound : Finset String) (standing : Standing)
    (id : Identifier) : (id.scoped v bound standing).span = id.span := by
  unfold Identifier.scoped
  split <;> rfl

theorem Relabel.keepsNames_places (f : Place → Place) (v : Vocabulary) :
    (Relabel.places f).KeepsNames v where
  name _ := rfl
  commutes bound standing id := by
    change (id.relocate f).scoped v bound standing = (id.scoped v bound standing).relocate f
    have hn : (id.relocate f).name = id.name := rfl
    unfold Identifier.scoped
    rw [hn]
    split <;> rfl

/-- Nothing of an identifier is kept but its span. -/
def Relabel.nameless : Relabel :=
  ⟨fun id => ⟨"", none, id.span⟩, fun id => ⟨"", none, id.span⟩, id⟩

theorem Relabel.uniform_nameless : Relabel.nameless.Uniform :=
  ⟨fun _ => rfl, fun _ => rfl⟩

theorem Relabel.hides_nameless (v : Vocabulary) : Relabel.same.Hides .nameless v := by
  intro bound standing id
  change (⟨"", none, (id.scoped v bound standing).span⟩ : Identifier) = ⟨"", none, id.span⟩
  rw [Identifier.span_scoped]

theorem spansOfStatements_scoped (v : Vocabulary) (bound : Finset String)
    (ss : List Statement) :
    spansOfStatements (scopedStatements v bound ss) = spansOfStatements ss := by
  have h := congrArg spansOfStatements
    (relabelStatements_scoped (Relabel.hides_nameless v) bound ss)
  rw [relabelStatements_same, spansOfStatements_relabel Relabel.uniform_nameless,
    spansOfStatements_relabel Relabel.uniform_nameless] at h
  simpa only [Relabel.nameless, List.map_id] using h

/-- The spans of a program do not change when its names are classified. -/
theorem Program.spans_classify (v : Vocabulary) (program : Program) :
    (program.classify v).spans = program.spans := by
  rw [Program.spans, Program.body_classify, spansOfStatements_scoped]
  rfl

/-- Relocating a program and classifying it can be done in either order. -/
theorem Program.classify_relocate (v : Vocabulary) (f : Place → Place) (program : Program) :
    (program.relocate f).classify v = (program.classify v).relocate f := by
  have body : ((program.relocate f).classify v).body = ((program.classify v).relocate f).body := by
    rw [Program.body_classify]
    change scopedStatements v ∅ (relabelStatements (.places f) program.body) =
      relabelStatements (.places f) (program.classify v).body
    rw [Program.body_classify, scopedStatements_relabel (Relabel.keepsNames_places f v)]
  exact congrArg (fun b => { program.relocate f with body := b }) body

end TemplateExpr
