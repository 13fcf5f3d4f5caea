/-
  The text of a tree depends on its names as they are written, and on no other label.

  * `Expr.bits_relabel`: a relabelling that keeps what is written keeps the bits.
  * `Program.legible_relabel`: it keeps what is legible, too.
-/
import TemplateExpr.Proofs.Printing.Printable

namespace TemplateExpr

/-- The relabelling keeps names as they are written. -/
structure Relabel.KeepsWritten (r : Relabel) : Prop where
  written : ∀ id, (r.onName id).written = id.written
  function : ∀ id, (r.onFunction id).name = id.name

theorem Relabel.keepsWritten_lexical : Relabel.lexical.KeepsWritten := ⟨fun _ => rfl, fun _ => rfl⟩

theorem Relabel.keepsWritten_bare : Relabel.bare.KeepsWritten := ⟨fun _ => rfl, fun _ => rfl⟩

section
variable {r : Relabel}

theorem needsGroupAsCallee_relabel (e : Expr) :
    needsGroupAsCallee (e.relabel r) = needsGroupAsCallee e := by
  cases e <;> rfl

theorem isObject_relabel (b : Body) : (b.relabel r).isObject = b.isObject := by
  cases b with
  | expression value => cases value <;> rfl
  | block => rfl

theorem isBlock_relabel (b : Body) : (b.relabel r).isBlock = b.isBlock := by
  cases b <;> rfl

theorem isWholeNumber_relabel (e : Expr) : (e.relabel r).isWholeNumber = e.isWholeNumber := by
  cases e with
  | literal value => cases value <;> rfl
  | _ => rfl

/-- The same bits are the same text. -/
theorem Expr.written_of_bits {e e' : Expr} (h : e.bits = e'.bits) : e.written = e'.written := by
  rw [← String.toList_inj, ← Expr.text_bits, h, Expr.text_bits]

theorem Body.written_of_bits {b b' : Body} (h : b.bits = b'.bits) : b.written = b'.written := by
  rw [← String.toList_inj, ← Body.text_bits, h, Body.text_bits]

/-! ## Bits -/

mutual

theorem Expr.bits_relabel (h : r.KeepsWritten) : ∀ e : Expr, (e.relabel r).bits = e.bits
  | .identifier id => by simp only [Expr.relabel, Expr.bits, h.written id]
  | .literal _ _ _ | .this _ => rfl
  | .array elements _ => by simp only [Expr.relabel, Expr.bits, bitsOfList_relabel h elements]
  | .object properties _ => by
    simp only [Expr.relabel, Expr.bits, bitsOfProperties_relabel h properties]
  | .member o p computed optional _ => by
    simp only [Expr.relabel, Expr.bits, needsGroupAsCallee_relabel, Expr.bits_relabel h o,
      Expr.bits_relabel h p]
  | .call callee arguments optional _ => by
    simp only [Expr.relabel, Expr.bits, needsGroupAsCallee_relabel, Expr.bits_relabel h callee,
      bitsOfList_relabel h arguments]
  | .unary op argument _ => by
    have ha := Expr.bits_relabel h argument
    simp only [Expr.relabel, Expr.bits, Expr.precedence_relabel, ha, Expr.written_of_bits ha]
  | .update op leading argument _ => by
    simp only [Expr.relabel, Expr.bits, Expr.precedence_relabel, Expr.bits_relabel h argument]
  | .binary op left right _ | .logical op left right _ | .assignment op left right _ => by
    simp only [Expr.relabel, Expr.bits, Expr.precedence_relabel, Expr.bits_relabel h left,
      Expr.bits_relabel h right]
  | .conditional test consequent alternate _ => by
    simp only [Expr.relabel, Expr.bits, Expr.precedence_relabel, Expr.bits_relabel h test,
      Expr.bits_relabel h consequent, Expr.bits_relabel h alternate]
  | .sequence expressions _ => by
    simp only [Expr.relabel, Expr.bits, bitsOfList_relabel h expressions]
  | .arrow ⟨_, params, body, _⟩ => by
    simp only [Expr.relabel, Lambda.relabel, Expr.bits, bitsOfParams_relabel h params,
      Body.bits_relabel h body, isBlock_relabel]
  | .function lambda => Lambda.bits_relabel h lambda

theorem bitsOfList_relabel (h : r.KeepsWritten) : ∀ es : List Expr,
    bitsOfList (relabelList r es) = bitsOfList es
  | [] => rfl
  | e :: es => by
    simp only [relabelList, bitsOfList, Expr.precedence_relabel, Expr.bits_relabel h e,
      bitsOfList_relabel h es]

theorem Property.bits_relabel (h : r.KeepsWritten) : ∀ p : Property, (p.relabel r).bits = p.bits
  | ⟨key, value, computed, shorthand, _⟩ => by
    simp only [Property.relabel, Property.bits, Expr.precedence_relabel, Expr.bits_relabel h key,
      Expr.bits_relabel h value]

theorem bitsOfProperties_relabel (h : r.KeepsWritten) : ∀ ps : List Property,
    bitsOfProperties (relabelProperties r ps) = bitsOfProperties ps
  | [] => rfl
  | p :: ps => by
    simp only [relabelProperties, bitsOfProperties, Property.bits_relabel h p,
      bitsOfProperties_relabel h ps]

theorem Lambda.bits_relabel (h : r.KeepsWritten) : ∀ f : Lambda, (f.relabel r).bits = f.bits
  | ⟨none, params, body, _⟩ => by
    simp only [Lambda.relabel, Option.map_none, Lambda.bits, bitsOfParams_relabel h params,
      Body.bits_relabel h body]
  | ⟨some id, params, body, _⟩ => by
    simp only [Lambda.relabel, Option.map_some, Lambda.bits, h.function id,
      bitsOfParams_relabel h params, Body.bits_relabel h body]

theorem Param.bits_relabel (h : r.KeepsWritten) : ∀ p : Param, (p.relabel r).bits = p.bits
  | .plain id => by simp only [Param.relabel, Param.bits, h.written id]
  | .withDefault id value _ => by
    simp only [Param.relabel, Param.bits, h.written id, Expr.precedence_relabel,
      Expr.bits_relabel h value]

theorem bitsOfParams_relabel (h : r.KeepsWritten) : ∀ ps : List Param,
    bitsOfParams (relabelParams r ps) = bitsOfParams ps
  | [] => rfl
  | p :: ps => by
    simp only [relabelParams, bitsOfParams, Param.bits_relabel h p, bitsOfParams_relabel h ps]

theorem Body.bits_relabel (h : r.KeepsWritten) : ∀ b : Body, (b.relabel r).bits = b.bits
  | .expression value => by
    have ho := isObject_relabel (r := r) (.expression value)
    rw [Body.relabel] at ho
    simp only [Body.relabel, Body.bits, ho, Expr.precedence_relabel, Expr.bits_relabel h value]
  | .block [] _ => rfl
  | .block (s :: ss) _ => by
    simp only [Body.relabel, relabelStatements, Body.bits, Statement.bits_relabel h s,
      bitsOfStatements_relabel h ss]

theorem Statement.bits_relabel (h : r.KeepsWritten) : ∀ s : Statement,
    (s.relabel r).bits = s.bits
  | .expression value _ => by
    have hv := Expr.bits_relabel h value
    simp only [Statement.relabel, Statement.bits, hv, Expr.written_of_bits hv]
  | .return none _ => rfl
  | .return (some argument) _ => by
    simp only [Statement.relabel, Statement.bits, Expr.bits_relabel h argument]
  | .declaration lambda => Lambda.bits_relabel h lambda

theorem bitsOfStatements_relabel (h : r.KeepsWritten) : ∀ ss : List Statement,
    bitsOfStatements (relabelStatements r ss) = bitsOfStatements ss
  | [] => rfl
  | s :: ss => by
    simp only [relabelStatements, bitsOfStatements, Statement.bits_relabel h s,
      bitsOfStatements_relabel h ss]

end

/-! ## What is legible -/

theorem readsAsBlock_relabel (h : r.KeepsWritten) (b : Body) :
    (b.relabel r).readsAsBlock = b.readsAsBlock := by
  rw [Body.readsAsBlock, Body.readsAsBlock, isBlock_relabel,
    Body.written_of_bits (b.bits_relabel h)]

mutual

theorem Expr.legible_relabel (h : r.KeepsWritten) : ∀ e : Expr, (e.relabel r).legible = e.legible
  | .identifier _ | .literal _ _ _ | .this _ => rfl
  | .array elements _ => legibleList_relabel h elements
  | .object properties _ => legibleProperties_relabel h properties
  | .member o p computed optional _ => by
    simp only [Expr.relabel, Expr.legible, Expr.legible_relabel h o, Expr.legible_relabel h p,
      isWholeNumber_relabel]
  | .call callee arguments _ _ => by
    simp only [Expr.relabel, Expr.legible, Expr.legible_relabel h callee,
      legibleList_relabel h arguments]
  | .unary _ argument _ | .update _ _ argument _ => Expr.legible_relabel h argument
  | .binary _ left right _ | .logical _ left right _ | .assignment _ left right _ => by
    simp only [Expr.relabel, Expr.legible, Expr.legible_relabel h left,
      Expr.legible_relabel h right]
  | .conditional test consequent alternate _ => by
    simp only [Expr.relabel, Expr.legible, Expr.legible_relabel h test,
      Expr.legible_relabel h consequent, Expr.legible_relabel h alternate]
  | .sequence expressions _ => legibleList_relabel h expressions
  | .arrow ⟨_, params, body, _⟩ => by
    simp only [Expr.relabel, Lambda.relabel, Expr.legible, legibleParams_relabel h params,
      Body.legible_relabel h body, readsAsBlock_relabel h]
  | .function lambda => Lambda.legible_relabel h lambda

theorem legibleList_relabel (h : r.KeepsWritten) : ∀ es : List Expr,
    legibleList (relabelList r es) = legibleList es
  | [] => rfl
  | e :: es => by
    simp only [relabelList, legibleList, Expr.legible_relabel h e, legibleList_relabel h es]

theorem Property.legible_relabel (h : r.KeepsWritten) : ∀ p : Property,
    (p.relabel r).legible = p.legible
  | ⟨key, value, _, _, _⟩ => by
    simp only [Property.relabel, Property.legible, Expr.legible_relabel h key,
      Expr.legible_relabel h value]

theorem legibleProperties_relabel (h : r.KeepsWritten) : ∀ ps : List Property,
    legibleProperties (relabelProperties r ps) = legibleProperties ps
  | [] => rfl
  | p :: ps => by
    simp only [relabelProperties, legibleProperties, Property.legible_relabel h p,
      legibleProperties_relabel h ps]

theorem Lambda.legible_relabel (h : r.KeepsWritten) : ∀ f : Lambda,
    (f.relabel r).legible = f.legible
  | ⟨_, params, body, _⟩ => by
    simp only [Lambda.relabel, Lambda.legible, legibleParams_relabel h params,
      Body.legible_relabel h body]

theorem Param.legible_relabel (h : r.KeepsWritten) : ∀ p : Param,
    (p.relabel r).legible = p.legible
  | .plain _ => rfl
  | .withDefault _ value _ => Expr.legible_relabel h value

theorem legibleParams_relabel (h : r.KeepsWritten) : ∀ ps : List Param,
    legibleParams (relabelParams r ps) = legibleParams ps
  | [] => rfl
  | p :: ps => by
    simp only [relabelParams, legibleParams, Param.legible_relabel h p, legibleParams_relabel h ps]

theorem Body.legible_relabel (h : r.KeepsWritten) : ∀ b : Body, (b.relabel r).legible = b.legible
  | .expression value => Expr.legible_relabel h value
  | .block statements _ => legibleStatements_relabel h statements

theorem Statement.legible_relabel (h : r.KeepsWritten) : ∀ s : Statement,
    (s.relabel r).legible = s.legible
  | .expression value _ => Expr.legible_relabel h value
  | .return none _ => rfl
  | .return (some argument) _ => Expr.legible_relabel h argument
  | .declaration lambda => Lambda.legible_relabel h lambda

theorem legibleStatements_relabel (h : r.KeepsWritten) : ∀ ss : List Statement,
    legibleStatements (relabelStatements r ss) = legibleStatements ss
  | [] => rfl
  | s :: ss => by
    simp only [relabelStatements, legibleStatements, Statement.legible_relabel h s,
      legibleStatements_relabel h ss]

end

theorem Program.legible_relabel (h : r.KeepsWritten) (p : Program) :
    (p.relabel r).legible = p.legible :=
  legibleStatements_relabel h p.body

theorem Program.written_relabel (h : r.KeepsWritten) (p : Program) :
    (p.relabel r).written = p.written := by
  have hb : (p.relabel r).bits = p.bits :=
    congrArg (Bit.joined ';') (bitsOfStatements_relabel h p.body)
  rw [← String.toList_inj, ← Program.text_bits, hb, Program.text_bits]

end

end TemplateExpr
