/-
  Where the identifiers of a classified program come from: each is an identifier of the program
  before it was classified, in the same place, and only names are classified.

  * `Program.span_identifiers_classify`: classifying keeps the spans of the identifiers.
  * `Program.stems_classify`: a classified identifier was a name that is a single token.
-/
import TemplateExpr.Proofs.Binding.Labels
import TemplateExpr.Proofs.Printing.Printable
import TemplateExpr.Proofs.Tree.Identifiers

namespace TemplateExpr
open Source

/-- The spans of the identifiers stay. -/
theorem Program.span_identifiers_classify (v : Vocabulary) (p : Program) :
    (p.classify v).identifiers.map (·.span) = p.identifiers.map (·.span) := by
  have nameless : ∀ ss, (identifiersOfStatements (relabelStatements .nameless ss)).map (·.span) =
      (identifiersOfStatements ss).map (·.span) := by
    intro ss
    rw [identifiersOfStatements_relabel rfl, List.map_map]
    rfl
  have h := relabelStatements_scoped (Relabel.hides_nameless v) ∅ p.body
  rw [relabelStatements_same, ← Program.body_classify] at h
  rw [identifiers, ← nameless, h, nameless, identifiers]

/-! ## Names that are classified -/

/-- Each identifier of the second list is one of the first, or one of them after it was
    classified. -/
def Stems (g : Grammar) (v : Vocabulary) (ids ids' : List Identifier) : Prop :=
  ∀ id' ∈ ids', ∃ id ∈ ids, id' = id ∨
    (Spelled g (.name id.written) id.written ∧
      ∃ bound standing, id' = id.scoped v bound standing)

section
variable {g : Grammar} {v : Vocabulary} {ids ids' others others' : List Identifier}

theorem Stems.same (g : Grammar) (v : Vocabulary) (ids : List Identifier) : Stems g v ids ids :=
  fun id h => ⟨id, h, .inl rfl⟩

theorem Stems.append (h : Stems g v ids ids') (h' : Stems g v others others') :
    Stems g v (ids ++ others) (ids' ++ others') := by
  intro id hid
  obtain hid | hid := List.mem_append.1 hid
  · obtain ⟨id', hm, hs⟩ := h id hid
    exact ⟨id', List.mem_append_left _ hm, hs⟩
  · obtain ⟨id', hm, hs⟩ := h' id hid
    exact ⟨id', List.mem_append_right _ hm, hs⟩

theorem Stems.name {id : Identifier} (h : Spelled g (.name id.written) id.written)
    (bound : Finset String) (standing : Standing) :
    Stems g v [id] [id.scoped v bound standing] := by
  intro id' hid
  obtain rfl := List.mem_singleton.1 hid
  exact ⟨id, List.mem_cons_self, .inr ⟨h, bound, standing, rfl⟩⟩

end

section
variable {g : Grammar} {full : Bool} {v : Vocabulary}

mutual

theorem Expr.stems_scoped (bound : Finset String) (standing : Standing) : ∀ e : Expr,
    e.Printable g full → Stems g v e.identifiers (e.scoped v bound standing).identifiers
  | .identifier _, h => .name h bound standing
  | .literal _ _ _, _ | .this _, _ => .same g v []
  | .array elements _, h => stems_scopedList bound elements h
  | .object properties _, h => stems_scopedProperties bound properties h
  | .member object property true _ _, h =>
    (Expr.stems_scoped bound .use object h.1).append (Expr.stems_scoped bound .target property h.2)
  | .member object _ false _ _, h =>
    (Expr.stems_scoped bound .use object h.1).append (.same g v _)
  | .call callee arguments _ _, h =>
    (Expr.stems_scoped bound .use callee h.1).append (stems_scopedList bound arguments h.2)
  | .unary _ argument _, h => Expr.stems_scoped bound .use argument h.2
  | .update _ _ argument _, h => Expr.stems_scoped bound .use argument h.2.2
  | .binary _ left right _, h | .logical _ left right _, h =>
    (Expr.stems_scoped bound .use left h.2.1).append (Expr.stems_scoped bound .use right h.2.2)
  | .conditional test consequent alternate _, h =>
    ((Expr.stems_scoped bound .use test h.1).append
      (Expr.stems_scoped bound .use consequent h.2.1)).append
      (Expr.stems_scoped bound .use alternate h.2.2)
  | .assignment _ left right _, h =>
    (Expr.stems_scoped bound .target left h.2.2.1).append
      (Expr.stems_scoped bound .use right h.2.2.2)
  | .sequence expressions _, h => stems_scopedList bound expressions h.2
  | .arrow lambda, h => Lambda.stems_scoped bound lambda h.2.2
  | .function lambda, h => Lambda.stems_scoped bound lambda h.2.2

theorem stems_scopedList (bound : Finset String) : ∀ es : List Expr, PrintableList g full es →
    Stems g v (identifiersOfList es) (identifiersOfList (scopedList v bound es))
  | [], _ => .same g v []
  | e :: es, h => (Expr.stems_scoped bound .use e h.1).append (stems_scopedList bound es h.2)

theorem Property.stems_scoped (bound : Finset String) : ∀ p : Property, p.Printable g full →
    Stems g v p.identifiers (p.scoped v bound).identifiers
  | ⟨.identifier _, .identifier _, _, true, _⟩, h => .name h.2.2 bound .use
  | ⟨key, value, true, false, _⟩, h =>
    (Expr.stems_scoped bound .use key h.1).append (Expr.stems_scoped bound .use value h.2)
  | ⟨_, value, false, false, _⟩, h =>
    (Stems.same g v _).append (Expr.stems_scoped bound .use value h.2)

theorem stems_scopedProperties (bound : Finset String) : ∀ ps : List Property,
    PrintableProperties g full ps →
    Stems g v (identifiersOfProperties ps) (identifiersOfProperties (scopedProperties v bound ps))
  | [], _ => .same g v []
  | p :: ps, h => (Property.stems_scoped bound p h.1).append (stems_scopedProperties bound ps h.2)

theorem Lambda.stems_scoped (bound : Finset String) : ∀ f : Lambda, f.Printable g full →
    Stems g v f.identifiers (f.scoped v bound).identifiers
  | ⟨_, params, body, _⟩, h =>
    ((Stems.same g v _).append (stems_scopedParams _ params h.2.1)).append
      (Body.stems_scoped _ body h.2.2)

theorem Param.stems_scoped (bound : Finset String) : ∀ p : Param, p.Printable g full →
    Stems g v p.identifiers (p.scoped v bound).identifiers
  | .plain _, h => .name h bound .target
  | .withDefault _ value _, h =>
    (Stems.name h.1 bound .target).append (Expr.stems_scoped bound .use value h.2)

theorem stems_scopedParams (bound : Finset String) : ∀ ps : List Param,
    PrintableParams g full ps →
    Stems g v (identifiersOfParams ps) (identifiersOfParams (scopedParams v bound ps))
  | [], _ => .same g v []
  | p :: ps, h => (Param.stems_scoped bound p h.1).append (stems_scopedParams bound ps h.2)

theorem Body.stems_scoped (bound : Finset String) : ∀ b : Body, b.Printable g full →
    Stems g v b.identifiers (b.scoped v bound).identifiers
  | .expression value, h => Expr.stems_scoped bound .use value h
  | .block statements _, h => stems_scopedStatements bound statements h

theorem Statement.stems_scoped {inBody : Bool} (bound : Finset String) : ∀ s : Statement,
    s.Printable g full inBody → Stems g v s.identifiers (s.scoped v bound).identifiers
  | .expression value _, h => Expr.stems_scoped bound .use value h
  | .return none _, _ => .same g v []
  | .return (some argument) _, h => Expr.stems_scoped bound .use argument h.2
  | .declaration lambda, h => Lambda.stems_scoped bound lambda h.2.2.2

theorem stems_scopedStatements {inBody : Bool} (bound : Finset String) : ∀ ss : List Statement,
    PrintableStatements g full inBody ss →
    Stems g v (identifiersOfStatements ss) (identifiersOfStatements (scopedStatements v bound ss))
  | [], _ => .same g v []
  | s :: ss, h => (Statement.stems_scoped bound s h.1).append (stems_scopedStatements bound ss h.2)

end

/-- The identifiers of a classified program, and those that they were before. -/
theorem Program.stems_classify {inBody : Bool} {p : Program}
    (h : PrintableStatements g full inBody p.body) :
    Stems g v p.identifiers (p.classify v).identifiers := by
  rw [identifiers, identifiers, Program.body_classify]
  exact stems_scopedStatements ∅ p.body h

end

end TemplateExpr
