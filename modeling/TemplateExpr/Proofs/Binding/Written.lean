/-
  A tree whose names have no contexts is written the same before and after it is classified: the
  sigil that a reference loses comes back from its context.

  * `write_resolve`: it comes back for every name.
  * `written_classify`: so the texts are the same.
-/
import TemplateExpr.Proofs.Binding.Scope
import TemplateExpr.Syntax.Identifiers
import TemplateExpr.Syntax.Written

namespace TemplateExpr

/-! ## Names -/

theorem sigilAndName_cases (name : String) : sigilAndName name = (none, name) ∨
    ∃ sigil bare, sigilAndName name = (some sigil, bare) ∧
      String.ofList (sigil.char :: bare.toList) = name := by
  unfold sigilAndName
  split
  · exact .inl rfl
  · next c rest hn =>
    cases hc : Sigil.ofChar? c with
    | none => exact .inl rfl
    | some sigil =>
      refine .inr ⟨sigil, _, rfl, ?_⟩
      rw [String.toList_ofList, Sigil.char_of_ofChar? hc, ← hn, String.ofList_toList]

/-- A reference is written as it was before it was classified. -/
theorem write_resolve (helpers : Names) (name : String) :
    Context.write (some (resolve helpers name).1) (resolve helpers name).2 = name := by
  unfold resolve
  obtain hs | ⟨sigil, bare, hs, hname⟩ := sigilAndName_cases name
  · rw [hs]
    dsimp only
    split <;> rfl
  · have hc := (Context.sigil?_eq_some_iff sigil.context sigil).2 rfl
    simp only [hs, Context.write, Option.bind_some, hc]
    exact hname

/-- Every identifier in the list has its sigil still. -/
def Unclassified (ids : List Identifier) : Prop :=
  ∀ id ∈ ids, id.context = none

section
variable {ids others : List Identifier} {id : Identifier}

@[simp] theorem unclassified_cons :
    Unclassified (id :: ids) ↔ id.context = none ∧ Unclassified ids :=
  List.forall_mem_cons

@[simp] theorem unclassified_append :
    Unclassified (ids ++ others) ↔ Unclassified ids ∧ Unclassified others :=
  List.forall_mem_append

end

section
variable (v : Vocabulary) (bound : Finset String)

theorem Identifier.written_scoped (standing : Standing) {id : Identifier}
    (h : id.context = none) : (id.scoped v bound standing).written = id.written := by
  unfold Identifier.scoped
  split
  · rw [written, written, h, write_resolve]
    rfl
  · rfl

/-! ## Trees

Parentheses depend on the kinds of nodes, which stay. -/

@[simp] theorem Expr.precedence_scoped (standing : Standing) (e : Expr) :
    (e.scoped v bound standing).precedence = e.precedence := by
  cases e <;> rfl

@[simp] theorem needsGroupAsCallee_scoped (standing : Standing) (e : Expr) :
    needsGroupAsCallee (e.scoped v bound standing) = needsGroupAsCallee e := by
  cases e <;> rfl

@[simp] theorem Body.isObject_scoped (b : Body) : (b.scoped v bound).isObject = b.isObject := by
  cases b with
  | expression value => cases value <;> rfl
  | block => rfl

end

section
variable (v : Vocabulary)

mutual

theorem Expr.written_scoped (bound : Finset String) (standing : Standing) : ∀ e : Expr,
    Unclassified e.identifiers → (e.scoped v bound standing).written = e.written
  | .identifier id, h => Identifier.written_scoped v bound standing (h id List.mem_cons_self)
  | .literal _ _ _, _ | .this _, _ => rfl
  | .array elements _, h => by
    rw [Expr.scoped, Expr.written, writtenList_scoped bound elements h, Expr.written]
  | .object properties _, h => by
    rw [Expr.scoped, Expr.written, writtenProperties_scoped bound properties h, Expr.written]
  | .member object property true optional _, h => by
    obtain ⟨ho, hp⟩ := unclassified_append.1 h
    simp only [Expr.scoped, Expr.written, needsGroupAsCallee_scoped, if_true,
      Expr.written_scoped bound .use object ho, Expr.written_scoped bound .target property hp]
  | .member object property false optional _, h => by
    obtain ⟨ho, -⟩ := unclassified_append.1 h
    simp only [Expr.scoped, Expr.written, needsGroupAsCallee_scoped, Bool.false_eq_true, if_false,
      Expr.written_scoped bound .use object ho]
  | .call callee arguments optional _, h => by
    obtain ⟨hc, ha⟩ := unclassified_append.1 h
    simp only [Expr.scoped, Expr.written, needsGroupAsCallee_scoped,
      Expr.written_scoped bound .use callee hc, writtenList_scoped bound arguments ha]
  | .unary op argument _, h | .update op _ argument _, h => by
    simp only [Expr.scoped, Expr.written, Expr.precedence_scoped,
      Expr.written_scoped bound .use argument h]
  | .binary op left right _, h | .logical op left right _, h => by
    obtain ⟨hl, hr⟩ := unclassified_append.1 h
    simp only [Expr.scoped, Expr.written, Expr.precedence_scoped,
      Expr.written_scoped bound .use left hl, Expr.written_scoped bound .use right hr]
  | .assignment op left right _, h => by
    obtain ⟨hl, hr⟩ := unclassified_append.1 h
    simp only [Expr.scoped, Expr.written, Expr.precedence_scoped,
      Expr.written_scoped bound .target left hl, Expr.written_scoped bound .use right hr]
  | .conditional test consequent alternate _, h => by
    obtain ⟨htc, ha⟩ := unclassified_append.1 h
    obtain ⟨ht, hc⟩ := unclassified_append.1 htc
    simp only [Expr.scoped, Expr.written, Expr.precedence_scoped,
      Expr.written_scoped bound .use test ht, Expr.written_scoped bound .use consequent hc,
      Expr.written_scoped bound .use alternate ha]
  | .sequence expressions _, h => by
    rw [Expr.scoped, Expr.written, writtenList_scoped bound expressions h, Expr.written]
  | .arrow ⟨_, params, body, _⟩, h => by
    obtain ⟨hip, hb⟩ := unclassified_append.1 h
    obtain ⟨-, hp⟩ := unclassified_append.1 hip
    simp only [Expr.scoped, Lambda.scoped, Expr.written, writtenParams_scoped _ params hp,
      Body.written_scoped _ body hb]
  | .function lambda, h => Lambda.written_scoped bound lambda h

theorem writtenList_scoped (bound : Finset String) : ∀ es : List Expr,
    Unclassified (identifiersOfList es) → writtenList (scopedList v bound es) = writtenList es
  | [], _ => rfl
  | e :: es, h => by
    obtain ⟨he, hes⟩ := unclassified_append.1 h
    simp only [scopedList, writtenList, Expr.precedence_scoped,
      Expr.written_scoped bound .use e he, writtenList_scoped bound es hes]

/-- The key of a shorthand entry is not written. -/
theorem Property.written_scoped (bound : Finset String) : ∀ p : Property,
    Unclassified p.identifiers → (p.scoped v bound).written = p.written
  | ⟨key, value, computed, true, _⟩, h => by
    simp only [Property.scoped, Property.written, if_true, Expr.written_scoped bound .use value h]
  | ⟨key, value, true, false, _⟩, h => by
    obtain ⟨hk, hv⟩ := unclassified_append.1 h
    simp only [Property.scoped, Property.written, Bool.false_eq_true, if_false, if_true,
      Expr.precedence_scoped, Expr.written_scoped bound .use key hk,
      Expr.written_scoped bound .use value hv]
  | ⟨key, value, false, false, _⟩, h => by
    obtain ⟨-, hv⟩ := unclassified_append.1 h
    simp only [Property.scoped, Property.written, Bool.false_eq_true, if_false,
      Expr.precedence_scoped, Expr.written_scoped bound .use value hv]

theorem writtenProperties_scoped (bound : Finset String) : ∀ ps : List Property,
    Unclassified (identifiersOfProperties ps) →
    writtenProperties (scopedProperties v bound ps) = writtenProperties ps
  | [], _ => rfl
  | p :: ps, h => by
    obtain ⟨hp, hps⟩ := unclassified_append.1 h
    simp only [scopedProperties, writtenProperties, Property.written_scoped bound p hp,
      writtenProperties_scoped bound ps hps]

theorem Lambda.written_scoped (bound : Finset String) : ∀ f : Lambda,
    Unclassified f.identifiers → (f.scoped v bound).written = f.written
  | ⟨_, params, body, _⟩, h => by
    obtain ⟨hip, hb⟩ := unclassified_append.1 h
    obtain ⟨-, hp⟩ := unclassified_append.1 hip
    simp only [Lambda.scoped, Lambda.written, writtenParams_scoped _ params hp,
      Body.written_scoped _ body hb]

theorem Param.written_scoped (bound : Finset String) : ∀ p : Param,
    Unclassified p.identifiers → (p.scoped v bound).written = p.written
  | .plain id, h => Identifier.written_scoped v bound .target (h id List.mem_cons_self)
  | .withDefault id value _, h => by
    obtain ⟨hid, hv⟩ := unclassified_cons.1 h
    simp only [Param.scoped, Param.written, Expr.precedence_scoped,
      Identifier.written_scoped v bound .target hid, Expr.written_scoped bound .use value hv]

theorem writtenParams_scoped (bound : Finset String) : ∀ ps : List Param,
    Unclassified (identifiersOfParams ps) →
    writtenParams (scopedParams v bound ps) = writtenParams ps
  | [], _ => rfl
  | p :: ps, h => by
    obtain ⟨hp, hps⟩ := unclassified_append.1 h
    simp only [scopedParams, writtenParams, Param.written_scoped bound p hp,
      writtenParams_scoped bound ps hps]

theorem Body.written_scoped (bound : Finset String) : ∀ b : Body,
    Unclassified b.identifiers → (b.scoped v bound).written = b.written
  | .expression value, h => by
    have ho := Body.isObject_scoped v bound (.expression value)
    simp only [Body.scoped] at ho
    simp only [Body.scoped, Body.written, ho, Expr.precedence_scoped,
      Expr.written_scoped bound .use value h]
  | .block [] _, _ => rfl
  | .block (s :: ss) _, h => by
    obtain ⟨hs, hss⟩ := unclassified_append.1 h
    simp only [Body.scoped, scopedStatements, Body.written, Statement.written_scoped bound s hs,
      writtenStatements_scoped bound ss hss]

theorem Statement.written_scoped (bound : Finset String) : ∀ s : Statement,
    Unclassified s.identifiers → (s.scoped v bound).written = s.written
  | .expression value _, h => by
    simp only [Statement.scoped, Statement.written, Expr.written_scoped bound .use value h]
  | .return none _, _ => rfl
  | .return (some argument) _, h => by
    simp only [Statement.scoped, Statement.written, Expr.written_scoped bound .use argument h]
  | .declaration lambda, h => Lambda.written_scoped bound lambda h

theorem writtenStatements_scoped (bound : Finset String) : ∀ ss : List Statement,
    Unclassified (identifiersOfStatements ss) →
    writtenStatements (scopedStatements v bound ss) = writtenStatements ss
  | [], _ => rfl
  | s :: ss, h => by
    obtain ⟨hs, hss⟩ := unclassified_append.1 h
    simp only [scopedStatements, writtenStatements, Statement.written_scoped bound s hs,
      writtenStatements_scoped bound ss hss]

end

end

/-! ## What was classified -/

/-- Classifying a program, or an expression that stands alone, does not change its text, if no
    identifier of it has a context before. -/
theorem written_classify (v : Vocabulary) :
    (∀ p : Program, Unclassified p.identifiers → (p.classify v).written = p.written) ∧
    (∀ e : Expr, Unclassified e.identifiers → (e.classify v).written = e.written) := by
  constructor
  · intro p h
    have hs := writtenStatements_scoped v ∅ p.body h
    rw [Program.written, Program.body_classify, hs, Program.written]
  · intro e h
    rw [Expr.classify_alone]
    exact Expr.written_scoped v ∅ .use e h

/-- A parameter with a default value of two sigils, and a shorthand entry. -/
theorem written_classify_arrow :
    let x : Identifier := ⟨"x", none, ⟨⟨0, ⟨1, 0⟩⟩, ⟨1, ⟨1, 1⟩⟩⟩⟩
    let a : Expr := .identifier { x with name := "$$a" }
    let b : Expr := .identifier { x with name := "b" }
    let entries : List Property :=
      [⟨b, b, false, true, x.span⟩, ⟨b, .identifier x, false, false, x.span⟩]
    let e : Expr := .arrow ⟨none, [.withDefault x a x.span], .expression (.object entries x.span),
      x.span⟩
    let p : Program := ⟨[.expression e x.span], x.span, none⟩
    Unclassified p.identifiers ∧ Unclassified e.identifiers ∧
      e.written = "(x = $$a) => (\x7bb, b: x\x7d)" ∧
      (e.classify default).identifiers.map (·.context) =
        [none, some .store, some .property, none, none] ∧
      (p.classify default).written = p.written ∧ (e.classify default).written = e.written := by
  intro x a b entries e p
  have he : Unclassified e.identifiers := by
    unfold Unclassified
    decide
  have hp : Unclassified p.identifiers := by
    unfold Unclassified
    decide
  exact ⟨hp, he, by decide, by decide, (written_classify default).1 p hp,
    (written_classify default).2 e he⟩

end TemplateExpr
