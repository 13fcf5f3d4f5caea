/-
  The pieces of a legible tree read as the tree, without its places.

  * `Expr.reading`: an expression reads at the level that the printer takes it for, so the two
    tables of precedence agree.
  * `readsAll_pieces`: the pieces of a program.
-/
import TemplateExpr.Proofs.Printing.Statements
import TemplateExpr.Proofs.Printing.First

namespace TemplateExpr
open Operator (Level)
open Bit (gap piece mark pieces)

/-! ## Parentheses -/

section
variable {g : Grammar} {full : Bool} {bits : List Bit} {e : Expr} {l m : Nat} {need : Bool}

/-- With parentheses where they are needed, an expression reads at the level that is wanted. -/
theorem Reading.grouped (h : Reading (pieces bits) e m) (hm : Precedence.sequence ≤ m)
    (hl : l ≤ Precedence.atom) (hn : need = false → l ≤ m) :
    Reading (pieces (Bit.grouped need bits)) e l := by
  cases need with
  | false => exact h.loosen (hn rfl)
  | true =>
    have hg := (h.group hm).loosen hl
    simpa [Bit.grouped] using hg

theorem Expr.sequence_le_precedence (e : Expr) : Precedence.sequence ≤ e.precedence := by
  have hb : ∀ op, Precedence.sequence ≤ Precedence.ofBinary op := by
    intro op
    rw [Precedence.ofBinary_eq_levels]
    split
    · decide
    · split
      · exact Nat.le_trans (by decide) (Nat.le_add_right _ _)
      · decide
  cases e with
  | binary op => exact hb op
  | logical op => exact hb op
  | update _ leading => cases leading <;> exact Nat.le_of_ble_eq_true rfl
  | _ => exact Nat.le_of_ble_eq_true rfl

theorem needsGroupAsCallee_eq_false (h : needsGroupAsCallee e = false) :
    Precedence.call ≤ e.precedence := by
  revert h
  cases e <;> simp [needsGroupAsCallee]

/-- What stands in front of a link. -/
theorem Reading.callee (h : Reading (pieces e.bits) (e.relabel .bare) e.precedence) :
    Reading (pieces (Bit.grouped (needsGroupAsCallee e) e.bits)) (e.relabel .bare)
      Precedence.call :=
  h.grouped e.sequence_le_precedence (by decide) needsGroupAsCallee_eq_false

/-- An operand that binds at least as tight as a level, or stands in parentheses. -/
theorem Reading.atLeast (h : Reading (pieces e.bits) (e.relabel .bare) e.precedence)
    (hl : l ≤ Precedence.atom) :
    Reading (pieces (Bit.grouped (e.precedence < l) e.bits)) (e.relabel .bare) l :=
  h.grouped e.sequence_le_precedence hl (by simp)

/-- The level of a binary operator, for the printer and for the grammar. -/
theorem level_of_isOperator {logical : Bool} {op : String} (h : IsOperator logical op) :
    ∃ d level tighter, Operator.levels.drop d = level :: tighter ∧ op ∈ level.operators ∧
      level.logical = logical ∧ op ≠ Operator.power ∧ Precedence.ofBinary op = 4 + d := by
  have table : ∀ d < 10, ∀ level ∈ (Operator.levels.drop d).head?, ∀ op ∈ level.operators,
      op ≠ Operator.power ∧ Precedence.ofBinary op = 4 + d := by decide
  obtain ⟨level, hm, hl, ho⟩ := h
  obtain ⟨d, hd, rfl⟩ := List.mem_iff_getElem.1 hm
  have hdrop := List.drop_eq_getElem_cons hd
  refine ⟨d, _, _, hdrop, ho, hl, table d hd _ ?_ op ho⟩
  rw [hdrop]
  rfl

/-- An operation whose operands stand in parentheses where the printer puts them. -/
theorem Reading.between {left right : Expr} {logical : Bool} {op : String}
    (hl : Reading (pieces left.bits) (left.relabel .bare) left.precedence)
    (hr : Reading (pieces right.bits) (right.relabel .bare) right.precedence)
    (ho : IsOperator logical op) :
    ∃ level : Level, level.logical = logical ∧
      Reading (pieces (Bit.grouped (left.precedence < leftMinimum op) left.bits) ++
          Piece.symbol op :: pieces (Bit.grouped (right.precedence < rightMinimum op) right.bits))
        (Production.binaryNode level op (left.relabel .bare) (right.relabel .bare))
        (Precedence.ofBinary op) := by
  obtain ⟨d, level, tighter, hd, hm, hlog, hp, hprec⟩ := level_of_isOperator ho
  have hlen := lt_length_of_drop hd
  refine ⟨level, hlog, ?_⟩
  rw [leftMinimum, rightMinimum, if_neg hp, if_neg hp, hprec]
  have hle : 4 + d + 1 ≤ Precedence.atom := by change _ ≤ 18; omega
  exact .binary hd hm (hl.atLeast (Nat.le_of_succ_le hle)) (Nat.le_refl _) (hr.atLeast hle)
    (Nat.le_refl _)

/-! ## First pieces -/

/-- An expression that does not read as a declaration begins with no function. -/
theorem not_function_of_opens (h : Opens full bits)
    (hd : ∀ written : String, Bit.text bits = written.toList → readsAsDeclaration written = false)
    (rest : List Piece) : (tape (pieces bits ++ rest)).atKeyword "function" = false := by
  obtain ⟨p, more, rfl, -, -, hf⟩ := h
  cases hk : p.lexeme.isKeyword "function" with
  | false => exact hk
  | true =>
    obtain ⟨-, hraw, c, cs, ht, hc⟩ := hf (Lexeme.isKeyword_iff.1 hk)
    have := hd (String.ofList (Bit.text (piece p :: more))) (by rw [String.toList_ofList])
    rw [Bit.text_piece, hraw, ht] at this
    revert this
    simp [readsAsDeclaration, hc]

/-- An expression whose text does not begin with a brace does not begin with one. -/
theorem not_brace_of_opens (h : Opens full bits) (hb : (Bit.text bits).head? ≠ some '\x7b')
    (rest : List Piece) : (tape (pieces bits ++ rest)).atMark '\x7b' = false := by
  obtain ⟨p, more, rfl, -, hm, -⟩ := h
  cases hk : p.lexeme.isMark '\x7b' with
  | false => exact hk
  | true =>
    rw [Bit.text_piece, hm _ (Lexeme.isMark_iff.1 hk), String.toList_singleton] at hb
    exact absurd rfl hb

end

theorem head_of_readsAsBlock {b : Body} (hb : b.readsAsBlock = false) (h : b.isBlock = false) :
    (Bit.text b.bits).head? ≠ some '\x7b' := by
  rw [Body.text_bits]
  simpa [Body.readsAsBlock, h] using hb

/-! ## Trees -/

theorem lexeme_word (word : String) :
    (Piece.word word).lexeme = .name word ∨ (Piece.word word).lexeme = .keyword word := by
  obtain ⟨h, -⟩ | ⟨h, -⟩ := Lexeme.word_cases word
  · exact .inr h
  · exact .inl h

theorem identifier_of_isName {g : Grammar} {e : Expr} (h : e.IsName g) :
    ∃ id, e = .identifier id := by
  cases e with
  | identifier id => exact ⟨id, rfl⟩
  | _ => exact absurd h id

theorem identifiers_of_isShorthand {g : Grammar} {key value : Expr}
    (h : Expr.IsShorthand g key value) :
    ∃ k v, key = .identifier k ∧ value = .identifier v := by
  cases key with
  | identifier k =>
    cases value with
    | identifier v => exact ⟨k, v, rfl, rfl⟩
    | _ => exact absurd h id
  | _ => exact absurd h id

theorem plainKey?_of_isKey {g : Grammar} {key : Expr} (h : key.IsKey g) :
    ∃ p alone, key.bits = [piece p] ∧
      Production.plainKey? p.token = some (key.relabel .bare, alone) := by
  cases key with
  | identifier id =>
    refine ⟨.word id.written, ?_⟩
    unfold Production.plainKey?
    obtain hw | hw := lexeme_word id.written <;>
      exact ⟨_, rfl, by simp only [Piece.token, hw]; rfl⟩
  | literal value raw =>
    cases value with
    | number => exact ⟨_, _, rfl, rfl⟩
    | text => exact ⟨_, _, rfl, rfl⟩
    | _ => exact absurd h id
  | _ => exact absurd h id

theorem atom?_of_written {g : Grammar} {full : Bool} {value : LiteralValue} {raw : String}
    (h : value.Written g full raw) :
    Production.atom? (Piece.literal value raw).token = some (.literal value raw .nowhere) := by
  cases value with
  | null => obtain rfl : raw = "null" := h; rfl
  | boolean value => obtain rfl : raw = if value then "true" else "false" := h; cases value <;> rfl
  | number => rfl
  | text => rfl

section
variable (c : Char)

theorem pieces_bitsOfList (es : List Expr) : pieces (Bit.joined c (bitsOfList es)) =
    joined c (es.map fun e => pieces e.itemBits) := by
  rw [bitsOfList_eq, Bit.pieces_joined, List.map_map]
  rfl

theorem pieces_bitsOfProperties (ps : List Property) :
    pieces (Bit.joined c (bitsOfProperties ps)) = joined c (ps.map fun p => pieces p.bits) := by
  rw [bitsOfProperties_eq, Bit.pieces_joined, List.map_map]
  rfl

theorem pieces_bitsOfParams (ps : List Param) :
    pieces (Bit.joined c (bitsOfParams ps)) = joined c (ps.map fun p => pieces p.bits) := by
  rw [bitsOfParams_eq, Bit.pieces_joined, List.map_map]
  rfl

theorem pieces_bitsOfStatements (ss : List Statement) :
    pieces (Bit.joined c (bitsOfStatements ss)) = joined c (ss.map fun s => pieces s.bits) := by
  rw [bitsOfStatements_eq, Bit.pieces_joined, List.map_map]
  rfl

end

theorem Body.pieces_block (ss : List Statement) (span : Source.Span) :
    pieces (Body.block ss span).bits =
      .mark '\x7b' :: (joined ';' (ss.map fun s => pieces s.bits) ++ [.mark '\x7d']) := by
  cases ss with
  | nil => rfl
  | cons s ss =>
    have hj := pieces_bitsOfStatements ';' (s :: ss)
    rw [bitsOfStatements] at hj
    rw [Body.bits, Bit.pieces_mark, Bit.pieces_gap, Bit.pieces_append, hj]
    rfl

section
variable {g : Grammar} {full : Bool}

mutual

theorem Expr.reading : ∀ e : Expr, e.Printable g full → e.legible = true →
    Reading (pieces e.bits) (e.relabel .bare) e.precedence
  | .identifier id, h, _ => by
    have hw : (Piece.word id.written).lexeme = .name id.written := word_of_spelled h
    refine Reading.atom (p := .word id.written) ?_
    unfold Production.atom?
    simp only [Piece.token, hw]
    rfl
  | .literal value raw _, h, _ => Reading.atom (atom?_of_written h)
  | .this _, _, _ => Reading.atom rfl
  | .array elements _, h, hl => by
    have hi := Reading.array (reading_items elements h hl)
    rw [Expr.bits, Bit.pieces_mark, Bit.pieces_append, pieces_bitsOfList, Expr.relabel,
      relabelList_eq]
    exact hi
  | .object properties _, h, hl => by
    have hi := Reading.object (reading_properties properties h hl)
    rw [Expr.bits, Bit.pieces_mark, Bit.pieces_append, pieces_bitsOfProperties, Expr.relabel,
      relabelProperties_eq]
    exact hi
  | .member o p true optional _, h, hl => by
    simp only [Expr.legible, Bool.and_eq_true] at hl
    have ho := (Expr.reading o h.1 hl.1.1).callee
    have hp := Expr.reading p (by simpa using h.2) hl.1.2
    cases optional with
    | false =>
      rw [Expr.bits, Bit.pieces_append, Bit.pieces_mark, Bit.pieces_append]
      exact ho.computed (Nat.le_refl _) hp p.sequence_le_precedence
    | true =>
      rw [Expr.bits, Bit.pieces_append, Bit.pieces_piece, Bit.pieces_mark, Bit.pieces_append]
      exact ho.computedOptional (Nat.le_refl _) hp p.sequence_le_precedence
  | .member o p false optional _, h, hl => by
    simp only [Expr.legible, Bool.and_eq_true] at hl
    have ho := (Expr.reading o h.1 hl.1.1).callee
    obtain ⟨id, rfl⟩ := identifier_of_isName (g := g) (by simpa using h.2)
    have hw := lexeme_word id.written
    cases optional with
    | false =>
      rw [Expr.bits, Bit.pieces_append]
      exact ho.named (Nat.le_refl _) hw
    | true =>
      rw [Expr.bits, Bit.pieces_append]
      exact ho.namedOptional (Nat.le_refl _) hw
  | .call callee arguments optional _, h, hl => by
    simp only [Expr.legible, Bool.and_eq_true] at hl
    have hc := (Expr.reading callee h.1 hl.1).callee
    have ha := reading_items arguments h.2 hl.2
    rw [Expr.bits, Bit.pieces_append, Bit.pieces_append, Bit.pieces_append, pieces_bitsOfList,
      Expr.relabel, relabelList_eq]
    cases optional with
    | false => exact hc.call (Nat.le_refl _) ha
    | true => exact hc.callOptional (Nat.le_refl _) ha
  | .unary op argument _, h, hl => by
    have ha := (Expr.reading argument h.2 hl).atLeast (l := Precedence.unary) (by decide)
    rw [Expr.bits, Bit.pieces_piece, Bit.pieces_append]
    have hs : pieces (if wantsSpace op (grouped (argument.precedence < Precedence.unary)
        argument.written) then [gap] else []) = [] := by split <;> rfl
    rw [hs]
    exact ha.unary (Nat.le_refl _) h.1
  | .update op true argument _, h, hl => by
    have ha := (Expr.reading argument h.2.2 hl).atLeast (l := Precedence.unary) (by decide)
    exact ha.leadingUpdate (Nat.le_refl _) (by simpa using h.2.1) h.1
  | .update op false argument _, h, hl => by
    have ha := (Expr.reading argument h.2.2 hl).atLeast (l := Precedence.call) (by decide)
    rw [Expr.bits, if_neg (by simp), Bit.pieces_append]
    exact ha.trailingUpdate (Nat.le_refl _) (by simpa using h.2.1) h.1
  | .binary op left right _, h, hl => by
    simp only [Expr.legible, Bool.and_eq_true] at hl
    have hleft := Expr.reading left h.2.1 hl.1
    have hright := Expr.reading right h.2.2 hl.2
    rw [Expr.bits, Bit.pieces_append, Bit.pieces_gap, Bit.pieces_piece, Bit.pieces_gap]
    obtain rfl | ho := h.1
    · exact (hleft.atLeast (l := Precedence.unary) (by decide)).binaryPower (Nat.le_refl _)
        (hright.atLeast (by decide)) (Nat.le_refl _)
    · obtain ⟨level, hlog, hr⟩ := hleft.between hright ho
      rw [Production.binaryNode, hlog, hleft.span, hright.span] at hr
      exact hr
  | .logical op left right _, h, hl => by
    simp only [Expr.legible, Bool.and_eq_true] at hl
    have hleft := Expr.reading left h.2.1 hl.1
    have hright := Expr.reading right h.2.2 hl.2
    rw [Expr.bits, Bit.pieces_append, Bit.pieces_gap, Bit.pieces_piece, Bit.pieces_gap]
    obtain ⟨level, hlog, hr⟩ := hleft.between hright h.1
    rw [Production.binaryNode, hlog, hleft.span, hright.span] at hr
    exact hr
  | .conditional test consequent alternate _, h, hl => by
    simp only [Expr.legible, Bool.and_eq_true] at hl
    have ht := (Expr.reading test h.1 hl.1.1).atLeast (l := Precedence.conditional + 1) (by decide)
    have hc := (Expr.reading consequent h.2.1 hl.1.2).atLeast (l := Precedence.assignment)
      (by decide)
    have ha := (Expr.reading alternate h.2.2 hl.2).atLeast (l := Precedence.assignment) (by decide)
    have hr := ht.chosen (Nat.le_refl _) hc (Nat.le_refl _) ha (Nat.le_refl _)
    rw [Expr.bits, Bit.pieces_append, Bit.pieces_gap, Bit.pieces_piece, Bit.pieces_gap,
      Bit.pieces_append]
    exact hr
  | .assignment op left right _, h, hl => by
    simp only [Expr.legible, Bool.and_eq_true] at hl
    have ht := (Expr.reading left h.2.2.1 hl.1).atLeast (l := Precedence.postfixed) (by decide)
    have hv := (Expr.reading right h.2.2.2 hl.2).atLeast (l := Precedence.assignment) (by decide)
    rw [Expr.bits, Bit.pieces_append]
    exact ht.assigned (by decide) (by simpa using h.2.1) h.1 hv (Nat.le_refl _)
  | .sequence [] _, h, _ => absurd h.1 (by simp)
  | .sequence [_] _, h, _ => absurd h.1 (by simp)
  | .sequence (a :: b :: es) _, h, hl => by
    have hs := Reading.several (reading_items (a :: b :: es) h.2 hl)
    rw [Expr.bits, pieces_bitsOfList, Expr.relabel, relabelList_eq]
    exact hs
  | .arrow ⟨_, params, .expression value, _⟩, h, hl => by
    obtain ⟨-, rfl, -, hp, hv⟩ := h
    simp only [Expr.legible, Bool.and_eq_true, Bool.not_eq_true'] at hl
    have hparams := reading_params params hp hl.1.1
    have hvalue : Reading (pieces (Body.expression value).bits) (value.relabel .bare)
        Precedence.assignment :=
      (Expr.reading value hv hl.1.2).grouped value.sequence_le_precedence (by decide) (by simp)
    have hopens : Opens full (Body.expression value).bits := (Expr.opens value hv).grouped _
    have hbrace := not_brace_of_opens hopens (head_of_readsAsBlock hl.2 rfl)
    rw [Expr.bits, Bit.pieces_mark, Bit.pieces_append, pieces_bitsOfParams, Bit.pieces_mark,
      Bit.pieces_gap, Bit.pieces_piece, Bit.pieces_gap, Expr.relabel, Lambda.relabel,
      relabelParams_eq, Body.relabel]
    exact .arrow hparams _ hvalue (Nat.le_refl _) hbrace
  | .arrow ⟨_, params, .block statements _, _⟩, h, hl => by
    obtain ⟨-, rfl, -, hp, hb⟩ := h
    simp only [Expr.legible, Bool.and_eq_true, Bool.not_eq_true'] at hl
    have hparams := reading_params params hp hl.1.1
    have hbody := BlockReading.of_statements (reading_statements true statements hb hl.1.2)
    rw [Expr.bits, Bit.pieces_mark, Bit.pieces_append, pieces_bitsOfParams, Bit.pieces_mark,
      Bit.pieces_gap, Bit.pieces_piece, Bit.pieces_gap, Body.pieces_block, Expr.relabel,
      Lambda.relabel, relabelParams_eq, Body.relabel, relabelStatements_eq]
    exact .blockArrow hparams _ hbody
  | .function f, h, hl => .function (Lambda.reading false f h.2.2 hl h.2.1 nofun)

theorem reading_items : ∀ es : List Expr, PrintableList g full es → legibleList es = true →
    ∀ e ∈ es, Reading (pieces e.itemBits) (e.relabel .bare) Precedence.assignment
  | [], _, _ => fun _ he => nomatch he
  | e :: es, h, hl => by
    intro x hx
    simp only [legibleList, Bool.and_eq_true] at hl
    cases hx with
    | head => exact (Expr.reading e h.1 hl.1).grouped e.sequence_le_precedence (by decide) (by simp)
    | tail _ hx => exact reading_items es h.2 hl.2 x hx

theorem Property.reading : ∀ p : Property, p.Printable g full → p.legible = true →
    ItemReading .property '\x7d' (pieces p.bits) (p.relabel .bare)
  | ⟨key, value, computed, true, _⟩, h, _ => by
    obtain ⟨rfl, hs⟩ : computed = false ∧ Expr.IsShorthand g key value := by
      simpa [Property.Printable] using h
    obtain ⟨k, v, rfl, rfl⟩ := identifiers_of_isShorthand hs
    have hr := ItemReading.shorthand (p := .word v.written) (word_of_spelled hs.2)
    simp only [Property.bits, if_true, Expr.bits, Property.relabel, Expr.relabel, Relabel.bare,
      hs.1]
    exact hr
  | ⟨key, value, true, false, _⟩, h, hl => by
    simp only [Property.legible, Bool.and_eq_true] at hl
    simp only [Property.Printable, if_true] at h
    have hk := (Expr.reading key h.1 hl.1).atLeast (l := Precedence.assignment) (by decide)
    have hv := (Expr.reading value h.2 hl.2).atLeast (l := Precedence.assignment) (by decide)
    have hr := ItemReading.computed hk (Nat.le_refl _) hv (Nat.le_refl _)
    rw [Property.bits, if_neg (by simp), if_pos rfl, List.cons_append, List.append_assoc,
      Bit.pieces_mark, Bit.pieces_append]
    exact hr
  | ⟨key, value, false, false, _⟩, h, hl => by
    simp only [Property.legible, Bool.and_eq_true] at hl
    simp only [Property.Printable] at h
    obtain ⟨p, alone, hbits, hp⟩ := plainKey?_of_isKey h.1
    have hv := (Expr.reading value h.2 hl.2).atLeast (l := Precedence.assignment) (by decide)
    have hr := ItemReading.keyed hp hv (Nat.le_refl _)
    rw [Property.bits, if_neg (by simp), if_neg (by simp), hbits]
    exact hr

theorem reading_properties : ∀ ps : List Property, PrintableProperties g full ps →
    legibleProperties ps = true →
    ∀ p ∈ ps, ItemReading .property '\x7d' (pieces p.bits) (p.relabel .bare)
  | [], _, _ => fun _ hp => nomatch hp
  | p :: ps, h, hl => by
    intro x hx
    simp only [legibleProperties, Bool.and_eq_true] at hl
    cases hx with
    | head => exact Property.reading p h.1 hl.1
    | tail _ hx => exact reading_properties ps h.2 hl.2 x hx

theorem Lambda.reading (declaration : Bool) : ∀ f : Lambda, f.Printable g full →
    f.legible = true → f.body.isBlock = true → (declaration = true → f.id.isSome = true) →
    FunctionReading declaration (pieces f.bits) (f.relabel .bare)
  | ⟨_, _, .expression _, _⟩, _, _, hb, _ => nomatch hb
  | ⟨none, params, .block statements span, _⟩, h, hl, _, hd => by
    simp only [Lambda.legible, Bool.and_eq_true] at hl
    have hparams := reading_params params h.2.1 hl.1
    have hbody := BlockReading.of_statements (reading_statements true statements h.2.2 hl.2)
    obtain rfl : declaration = false := by
      cases declaration with
      | false => rfl
      | true => exact absurd (hd rfl) (by simp)
    have hr := FunctionReading.nameless hparams hbody
    rw [Lambda.bits, Bit.pieces_piece, List.nil_append, Bit.pieces_mark, Bit.pieces_append,
      pieces_bitsOfParams, Bit.pieces_mark, Bit.pieces_gap, Body.pieces_block, Lambda.relabel,
      relabelParams_eq, Body.relabel, relabelStatements_eq]
    exact hr
  | ⟨some id, params, .block statements span, _⟩, h, hl, _, _ => by
    simp only [Lambda.legible, Bool.and_eq_true] at hl
    have hparams := reading_params params h.2.1 hl.1
    have hbody := BlockReading.of_statements (reading_statements true statements h.2.2 hl.2)
    have hname : (Piece.word id.name).lexeme = .name id.name := word_of_spelled (h.1 id rfl)
    have hr := FunctionReading.named declaration hname hparams hbody
    rw [Lambda.bits, Bit.pieces_piece, List.cons_append, List.cons_append, List.nil_append,
      Bit.pieces_gap, Bit.pieces_piece, Bit.pieces_mark, Bit.pieces_append,
      pieces_bitsOfParams, Bit.pieces_mark, Bit.pieces_gap, Body.pieces_block, Lambda.relabel,
      relabelParams_eq, Body.relabel, relabelStatements_eq]
    exact hr

theorem Param.reading : ∀ p : Param, p.Printable g full → p.legible = true →
    ItemReading .param ')' (pieces p.bits) (p.relabel .bare)
  | .plain id, h, _ => ItemReading.plainParam (p := .word id.written) (word_of_spelled h)
  | .withDefault id value _, h, hl =>
    ItemReading.defaultParam (p := .word id.written) (word_of_spelled h.1)
      ((Expr.reading value h.2 hl).grouped value.sequence_le_precedence (by decide) (by simp))
      (Nat.le_refl _)

theorem reading_params : ∀ ps : List Param, PrintableParams g full ps →
    legibleParams ps = true → ∀ p ∈ ps, ItemReading .param ')' (pieces p.bits) (p.relabel .bare)
  | [], _, _ => fun _ hp => nomatch hp
  | p :: ps, h, hl => by
    intro x hx
    simp only [legibleParams, Bool.and_eq_true] at hl
    cases hx with
    | head => exact Param.reading p h.1 hl.1
    | tail _ hx => exact reading_params ps h.2 hl.2 x hx

theorem Statement.reading (inBody : Bool) : ∀ s : Statement, s.Printable g full inBody →
    s.legible = true → StatementReading inBody (pieces s.bits) (s.relabel .bare)
  | .expression value _, h, hl => by
    rw [Statement.bits]
    have hv : Reading (pieces (Bit.grouped (readsAsDeclaration value.written) value.bits))
        (value.relabel .bare) Precedence.sequence :=
      (Expr.reading value h hl).grouped value.sequence_le_precedence (by decide)
        fun _ => value.sequence_le_precedence
    refine .expression hv (Nat.le_refl _) ?_
    cases hd : readsAsDeclaration value.written with
    | true => exact fun _ => rfl
    | false =>
      refine not_function_of_opens (Expr.opens value h) fun written hw => ?_
      have ht := (Expr.text_bits value).symm.trans hw
      rwa [← String.toList_inj.1 ht]
  | .return none _, h, _ => by
    obtain rfl : inBody = true := h
    exact .bareReturn
  | .return (some argument) _, h, hl => by
    obtain rfl : inBody = true := h.1
    exact .return (Expr.reading argument h.2 hl) argument.sequence_le_precedence
  | .declaration f, h, hl =>
    .declaration (Lambda.reading true f h.2.2.2 hl h.2.2.1 fun _ => h.2.1)

theorem reading_statements (inBody : Bool) : ∀ ss : List Statement,
    PrintableStatements g full inBody ss → legibleStatements ss = true →
    ∀ s ∈ ss, StatementReading inBody (pieces s.bits) (s.relabel .bare)
  | [], _, _ => fun _ hs => nomatch hs
  | s :: ss, h, hl => by
    intro x hx
    simp only [legibleStatements, Bool.and_eq_true] at hl
    cases hx with
    | head => exact Statement.reading inBody s h.1 hl.1
    | tail _ hx => exact reading_statements inBody ss h.2 hl.2 x hx

end

/-- The pieces of a legible program read as the statements of the program. -/
theorem readsAll_pieces {p : Program} (h : PrintableStatements g full false p.body)
    (hl : p.legible = true) :
    ReadsAll (tape (pieces p.bits)) (relabelStatements .bare p.body) := by
  have hr := readsAll_of_statements (reading_statements false p.body h hl)
  rw [Program.bits, pieces_bitsOfStatements, relabelStatements_eq]
  exact hr

end

end TemplateExpr
