/-
  The tokens of a printed tree are its pieces.

  * `Expr.whole`: each piece of a tree, by itself, is a single token.
  * `tokens_text`: bits that are apart and whole have their pieces for tokens.
-/
import TemplateExpr.Proofs.Printing.Apart
import TemplateExpr.Proofs.Places.Relocate

namespace TemplateExpr
open Source Text
open Bit (gap piece mark pieces)

/-! ## Fixed spellings -/

namespace Lexeme

variable {c : Char} {word op : String}

theorem alone_mark (g : Grammar) (hc : c ∈ Symbol.marks) :
    (mark c).Alone g (String.singleton c) := by
  have table : (Symbol.marks.all fun c => decide (Sigil.ofChar? c = none ∧ c.toNat < 128 ∧
      (c.isAlpha || c == '_' || c == '$') = false ∧ beginsNumber c [] = false ∧
      Trivia.begins [c] = false)) = true := by decide
  obtain ⟨hs, hl, hn, hd, ht⟩ := of_decide_eq_true (List.all_eq_true.1 table c hc)
  rw [← isNameStart_ascii hl] at hn
  have hs : g.sigil? c = none := by rw [Grammar.sigil?, hs]; rfl
  exact ⟨c, [], by simp, ht, (Start.mark hs hn hd hc).read_eq⟩

theorem alone_keyword (g : Grammar) (hw : word ∈ Symbol.keywords) :
    (keyword word).Alone g word := by
  have table : ∀ word ∈ Symbol.keywords,
      word.toList.head?.any (fun c => (Sigil.ofChar? c).isNone && isNameStart c) = true ∧
      Trivia.begins word.toList = false ∧
      word.toList.tail.takeWhile isNamePart = word.toList.tail := by decide
  obtain ⟨hfirst, ht, hall⟩ := table word hw
  obtain ⟨c, cs, hcs, hc⟩ := first_of_any hfirst
  obtain ⟨hs, hn⟩ := Bool.and_eq_true_iff.1 hc
  rw [Option.isNone_iff_eq_none] at hs
  rw [hcs] at ht hall
  have hs : g.sigil? c = none := by rw [Grammar.sigil?, hs]; rfl
  have hread : readWord c cs = (keyword word, cs.length) := by
    rw [List.tail_cons] at hall
    obtain ⟨hk, -⟩ | ⟨-, hk⟩ := word_cases word
    · rw [readWord, hall, ← hcs, String.ofList_toList, hk]
    · exact absurd hw hk
  exact ⟨c, cs, hcs, ht, (Start.word hs hn).read_eq.trans hread⟩

theorem alone_operator (g : Grammar) (ho : op ∈ Symbol.operators) : (operator op).Alone g op := by
  have table : ∀ op ∈ Symbol.operators, op.toList.head?.any (fun c =>
      decide (c.toNat < 128) && ((Sigil.ofChar? c).isNone &&
        !(c.isAlpha || c == '_' || c == '$') && !isDigit c && c != '.' &&
        !Symbol.marks.contains c && !(c == '\'' || c == '"'))) = true ∧
      Trivia.begins op.toList = false := by decide
  obtain ⟨hfirst, ht⟩ := table op ho
  obtain ⟨c, cs, hcs, hc⟩ := first_of_any hfirst
  obtain ⟨hl, hb⟩ := Bool.and_eq_true_iff.1 hc
  rw [← beginsOperator_ascii (of_decide_eq_true hl)] at hb
  have hlen : op.length - 1 = cs.length := by
    rw [← String.length_toList, hcs]
    rfl
  have hat := Symbol.operatorAt?_toList ho
  rw [hcs] at ht hat
  have hread := readOperator_of_operatorAt? hat
  rw [hlen] at hread
  exact ⟨c, cs, hcs, ht, (start_of_beginsOperator hb).read_eq.trans hread⟩

end Lexeme

/-! ## Whole pieces -/

/-- Each piece, by itself, is a single token. -/
def Bit.Whole (g : Grammar) (bits : List Bit) : Prop :=
  ∀ p ∈ pieces bits, p.lexeme.Alone g p.raw

open Bit (Whole)

section
variable {g : Grammar} {full : Bool} {bits others : List Bit} {c : Char} {op word : String}

@[simp] theorem whole_nil : Whole g [] := nofun

@[simp] theorem whole_gap : Whole g (gap :: bits) ↔ Whole g bits := Iff.rfl

theorem whole_piece {p : Piece} :
    Whole g (piece p :: bits) ↔ p.lexeme.Alone g p.raw ∧ Whole g bits := by
  simp [Whole]

@[simp] theorem whole_append : Whole g (bits ++ others) ↔ Whole g bits ∧ Whole g others := by
  simp only [Whole, Bit.pieces_append, List.forall_mem_append]

@[simp] theorem whole_mark (hc : Symbol.marks.contains c = true) :
    Whole g (mark c :: bits) ↔ Whole g bits := by
  rw [mark, whole_piece, and_iff_right]
  exact Lexeme.alone_mark g (by simpa using hc)

theorem whole_keyword (hw : word ∈ Symbol.keywords) :
    Whole g (piece (.keyword word) :: bits) ↔ Whole g bits := by
  rw [whole_piece, and_iff_right]
  exact Lexeme.alone_keyword g hw

theorem whole_operator (ho : op ∈ Symbol.operators) :
    Whole g (piece (.operator op) :: bits) ↔ Whole g bits := by
  rw [whole_piece, and_iff_right]
  exact Lexeme.alone_operator g ho

theorem whole_arrow {block : Bool} :
    Whole g (piece (.arrow block) :: bits) ↔ Whole g bits := by
  rw [whole_piece, and_iff_right]
  exact Lexeme.alone_operator g (by decide)

theorem whole_symbol (ho : IsSymbol op) :
    Whole g (piece (.symbol op) :: bits) ↔ Whole g bits := by
  unfold Piece.symbol
  split
  · next hk => exact whole_keyword (by simpa using hk)
  · next hk =>
    exact whole_operator ((List.mem_append.1 ho.1).resolve_right (by simpa using hk))

theorem whole_word (hw : IsWord g word) :
    Whole g (piece (.word word) :: bits) ↔ Whole g bits := by
  rw [whole_piece, and_iff_right]
  obtain hw | hw := hw
  · have hl : (Piece.word word).lexeme = .name word := word_of_spelled hw
    rw [hl]
    exact hw.alone rfl
  · have hl : (Piece.word word).lexeme = .keyword word := by
      simp [Piece.word, Symbol.word, hw]
    rw [hl]
    exact Lexeme.alone_keyword g hw

theorem whole_literal {value : LiteralValue} {raw : String} (h : value.Written g full raw) :
    Whole g (piece (.literal value raw) :: bits) ↔ Whole g bits := by
  cases value with
  | null =>
    obtain rfl : raw = "null" := h
    exact whole_keyword (by decide)
  | boolean value =>
    obtain rfl : raw = if value then "true" else "false" := h
    cases value <;> exact whole_keyword (by decide)
  | number =>
    rw [whole_piece, and_iff_right]
    exact h.2.alone rfl
  | text =>
    rw [whole_piece, and_iff_right]
    exact Spelled.alone h rfl

@[simp] theorem whole_grouped {need : Bool} :
    Whole g (Bit.grouped need bits) ↔ Whole g bits := by
  cases need with
  | false => exact Iff.rfl
  | true => simp [Bit.grouped, Symbol.marks]

theorem whole_joined (hc : Symbol.marks.contains c = true) {items : List (List Bit)}
    (h : ∀ bits ∈ items, Whole g bits) : Whole g (Bit.joined c items) := by
  induction items with
  | nil => exact whole_nil
  | cons first items ih =>
    have ih := ih fun bits hb => h bits (List.mem_cons_of_mem first hb)
    have hf := h first List.mem_cons_self
    cases items with
    | nil => exact hf
    | cons second items =>
      rw [Bit.joined, whole_append, whole_mark hc, whole_gap]
      exact ⟨hf, ih⟩

theorem whole_key {key : Expr} (h : key.IsKey g) : Whole g key.bits := by
  cases key with
  | identifier id => exact (whole_word h).2 whole_nil
  | literal value raw =>
    cases value with
    | number => exact whole_piece.2 ⟨Spelled.alone h rfl, whole_nil⟩
    | text => exact whole_piece.2 ⟨Spelled.alone h rfl, whole_nil⟩
    | _ => exact absurd h id
  | _ => exact absurd h id

end

/-! ## Trees -/

section
variable {g : Grammar} {full : Bool}

mutual

theorem Expr.whole : ∀ e : Expr, e.Printable g full → Whole g e.bits
  | .identifier _, h => (whole_word (.inl h)).2 whole_nil
  | .literal _ _ _, h => (whole_literal h).2 whole_nil
  | .this _, _ => (whole_keyword (by decide)).2 whole_nil
  | .array elements _, h => by
    have he := whole_joined (c := ',') (by decide) (whole_list elements h)
    simp [Expr.bits, Symbol.marks, he]
  | .object properties _, h => by
    have hp := whole_joined (c := ',') (by decide) (whole_properties properties h)
    simp [Expr.bits, Symbol.marks, hp]
  | .member o p true optional _, h => by
    have ho := Expr.whole o h.1
    have hp := Expr.whole p h.2
    have hq : ∀ bits, Whole g (piece (.operator "?.") :: bits) ↔ Whole g bits :=
      fun _ => whole_operator (by decide)
    cases optional <;> simp [Expr.bits, Symbol.marks, hq, ho, hp]
  | .member o p false optional _, h => by
    have ho := Expr.whole o h.1
    obtain ⟨id, rfl, hw⟩ := IsName.identifier h.2
    have hp : Whole g [piece (.word id.written)] := (whole_word hw).2 whole_nil
    have hq : ∀ bits, Whole g (piece (.operator "?.") :: bits) ↔ Whole g bits :=
      fun _ => whole_operator (by decide)
    cases optional <;> simp [Expr.bits, Symbol.marks, hq, ho, hp]
  | .call callee arguments optional _, h => by
    have hc := Expr.whole callee h.1
    have ha := whole_joined (c := ',') (by decide) (whole_list arguments h.2)
    have hq : ∀ bits, Whole g (piece (.operator "?.") :: bits) ↔ Whole g bits :=
      fun _ => whole_operator (by decide)
    cases optional <;> simp [Expr.bits, Symbol.marks, hq, hc, ha]
  | .unary op argument _, h => by
    have ha := Expr.whole argument h.2
    rw [Expr.bits, whole_symbol (isSymbol_unary h.1), whole_append, whole_grouped]
    split <;> simp [ha]
  | .update op leading argument _, h => by
    have ha := Expr.whole argument h.2.2
    have ho : ∀ bits, Whole g (piece (.operator op) :: bits) ↔ Whole g bits := by
      have table : ∀ op ∈ Operator.update, op ∈ Symbol.operators := by decide
      exact fun _ => whole_operator (table op h.1)
    cases leading <;> simp [Expr.bits, ho, ha]
  | .binary op left right _, h => by
    have hl := Expr.whole left h.2.1
    have hr := Expr.whole right h.2.2
    simp [Expr.bits, whole_symbol (isSymbol_binary h.1), hl, hr]
  | .logical op left right _, h => by
    have hl := Expr.whole left h.2.1
    have hr := Expr.whole right h.2.2
    simp [Expr.bits, whole_symbol (isSymbol_binary (.inr h.1)), hl, hr]
  | .conditional test consequent alternate _, h => by
    have ht := Expr.whole test h.1
    have hc := Expr.whole consequent h.2.1
    have ha := Expr.whole alternate h.2.2
    simp [Expr.bits, Symbol.marks, whole_operator isOperator_question.1, ht, hc, ha]
  | .assignment op left right _, h => by
    have hl := Expr.whole left h.2.2.1
    have hr := Expr.whole right h.2.2.2
    simp [Expr.bits, whole_operator (isOperator_assignment h.1).1, hl, hr]
  | .sequence expressions _, h => whole_joined (by decide) (whole_list expressions h.2)
  | .arrow ⟨_, params, body, _⟩, h => by
    have hp := whole_joined (c := ',') (by decide) (whole_params params h.2.2.2.1)
    have hb := Body.whole body h.2.2.2.2
    simp [Expr.bits, Symbol.marks, whole_arrow, hp, hb]
  | .function f, h => Lambda.whole f h.2.2

theorem whole_list : ∀ es : List Expr, PrintableList g full es →
    ∀ bits ∈ bitsOfList es, Whole g bits
  | [], _ => fun _ hb => nomatch hb
  | e :: es, h => by
    intro bits hb
    cases hb with
    | head => exact whole_grouped.2 (Expr.whole e h.1)
    | tail _ hb => exact whole_list es h.2 bits hb

theorem Property.whole : ∀ p : Property, p.Printable g full → Whole g p.bits
  | ⟨key, value, _, true, _⟩, h => by
    obtain ⟨-, id, -, rfl, -, hw⟩ := IsShorthand.identifiers h.2
    exact (whole_word (.inl hw)).2 whole_nil
  | ⟨key, value, true, false, _⟩, h => by
    have hk := Expr.whole key h.1
    have hv := Expr.whole value h.2
    simp [Property.bits, Symbol.marks, hk, hv]
  | ⟨key, value, false, false, _⟩, h => by
    have hv := Expr.whole value h.2
    simp [Property.bits, Symbol.marks, whole_key h.1, hv]

theorem whole_properties : ∀ ps : List Property, PrintableProperties g full ps →
    ∀ bits ∈ bitsOfProperties ps, Whole g bits
  | [], _ => fun _ hb => nomatch hb
  | p :: ps, h => by
    intro bits hb
    cases hb with
    | head => exact Property.whole p h.1
    | tail _ hb => exact whole_properties ps h.2 bits hb

theorem Lambda.whole : ∀ f : Lambda, f.Printable g full → Whole g f.bits
  | ⟨id, params, body, _⟩, h => by
    have hk : "function" ∈ Symbol.keywords := by decide
    have hp := whole_joined (c := ',') (by decide) (whole_params params h.2.1)
    have hb := Body.whole body h.2.2
    cases id with
    | none => simp [Lambda.bits, Symbol.marks, whole_keyword hk, hp, hb]
    | some id =>
      simp [Lambda.bits, Symbol.marks, whole_keyword hk, whole_word (.inl (h.1 id rfl)), hp, hb]

theorem Param.whole : ∀ p : Param, p.Printable g full → Whole g p.bits
  | .plain _, h => (whole_word (.inl h)).2 whole_nil
  | .withDefault _ value _, h => by
    have hv := Expr.whole value h.2
    have ho : "=" ∈ Symbol.operators := by decide
    simp [Param.bits, whole_word (.inl h.1), whole_operator ho, hv]

theorem whole_params : ∀ ps : List Param, PrintableParams g full ps →
    ∀ bits ∈ bitsOfParams ps, Whole g bits
  | [], _ => fun _ hb => nomatch hb
  | p :: ps, h => by
    intro bits hb
    cases hb with
    | head => exact Param.whole p h.1
    | tail _ hb => exact whole_params ps h.2 bits hb

theorem Body.whole : ∀ b : Body, b.Printable g full → Whole g b.bits
  | .expression value, h => whole_grouped.2 (Expr.whole value h)
  | .block [] _, _ => by simp [Body.bits, Symbol.marks]
  | .block (s :: ss) _, h => by
    have hs := whole_joined (c := ';') (by decide) (whole_statements (s :: ss) h)
    rw [bitsOfStatements] at hs
    simp [Body.bits, Symbol.marks, hs]

theorem Statement.whole {inBody : Bool} : ∀ s : Statement, s.Printable g full inBody →
    Whole g s.bits
  | .expression value _, h => whole_grouped.2 (Expr.whole value h)
  | .return none _, _ => (whole_keyword (by decide)).2 whole_nil
  | .return (some argument) _, h => (whole_keyword (by decide)).2 (Expr.whole argument h.2)
  | .declaration f, h => Lambda.whole f h.2.2.2

theorem whole_statements {inBody : Bool} : ∀ ss : List Statement,
    PrintableStatements g full inBody ss → ∀ bits ∈ bitsOfStatements ss, Whole g bits
  | [], _ => fun _ hb => nomatch hb
  | s :: ss, h => by
    intro bits hb
    cases hb with
    | head => exact Statement.whole s h.1
    | tail _ hb => exact whole_statements ss h.2 bits hb

end

end

/-! ## Tokens -/

/-- The tokens of bits that are apart are their pieces. -/
theorem tokens_text {g : Grammar} {bits : List Bit} (ha : Bit.Apart true bits [])
    (hw : Whole g bits) (cursor : Cursor) :
    (Token.ofTextFrom g cursor (Bit.text bits)).map (·.relocate fun _ => .nowhere) =
      (pieces bits).map Piece.token := by
  induction bits generalizing cursor with
  | nil =>
    rw [Bit.text_nil, Token.ofTextFrom_nil]
    rfl
  | cons bit bits ih =>
    cases bit with
    | gap =>
      rw [Bit.text_gap, Token.ofTextFrom_space]
      exact ih ha hw _
    | piece p =>
      obtain ⟨⟨hj, hc⟩, ha⟩ := apart_piece.1 ha
      obtain ⟨hp, hw⟩ := whole_piece.1 hw
      have he := Piece.ends hj (hc rfl)
      rw [List.append_nil] at he
      obtain ⟨span, cursor', ht⟩ := Token.ofTextFrom_alone hp he cursor
      rw [Bit.text_piece, ht, List.map_cons, ih ha hw]
      rfl

end TemplateExpr
