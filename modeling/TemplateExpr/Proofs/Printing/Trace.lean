/-
  What is the same in the tokens that a tree was read from and in the pieces of its text: all of
  them but the marks, since parentheses and separators come and go. Of each `=>` it is kept
  whether a brace follows.

  * `trace_of_reads`: the tokens of a phrase and the pieces of its tree have the same trace.
  * `apart_of_trace`: a text that has the trace of its pieces has its pieces for tokens.
-/
import TemplateExpr.Proofs.Printing.Parsed
import TemplateExpr.Proofs.Printing.Tokens

namespace TemplateExpr
open Source Text
open Operator (Level)
open Production
open Bit (gap piece mark pieces)

/-! ## Traces -/

/-- The lexeme is no mark. -/
def Lexeme.isTelling : Lexeme → Bool
  | .mark _ => false
  | _ => true

/-- The pieces but the marks. -/
def Bit.trace (bits : List Bit) : List Piece :=
  (pieces bits).filter (·.lexeme.isTelling)

/-- The pieces that the tokens are, but the marks. A block follows `=>` if a brace does. -/
def traceOfTokens : List Token → List Piece
  | [] => []
  | token :: rest =>
    if token.lexeme.isTelling then
      ⟨token.lexeme, token.raw,
        token.lexeme.isOperator "=>" && rest.head?.any (·.lexeme.isMark '\x7b')⟩ ::
        traceOfTokens rest
    else traceOfTokens rest

def Input.trace (i : Input) : List Piece :=
  traceOfTokens i.rest

open Bit (Apart Whole trace)

section
variable {bits others : List Bit} {p : Piece}

@[simp] theorem trace_nil : trace [] = [] := rfl

@[simp] theorem trace_gap : trace (gap :: bits) = trace bits := rfl

@[simp] theorem trace_mark (c : Char) : trace (mark c :: bits) = trace bits := rfl

theorem trace_piece (h : p.lexeme.isTelling = true) :
    trace (piece p :: bits) = p :: trace bits :=
  List.filter_cons_of_pos h

@[simp] theorem trace_keyword (word : String) :
    trace (piece (.keyword word) :: bits) = .keyword word :: trace bits := rfl

@[simp] theorem trace_operator (op : String) :
    trace (piece (.operator op) :: bits) = .operator op :: trace bits := rfl

@[simp] theorem trace_arrow (block : Bool) :
    trace (piece (.arrow block) :: bits) = .arrow block :: trace bits := rfl

@[simp] theorem trace_symbol (op : String) :
    trace (piece (.symbol op) :: bits) = .symbol op :: trace bits := by
  refine trace_piece ?_
  obtain h | h := Piece.lexeme_symbol op <;> rw [h] <;> rfl

@[simp] theorem trace_word (word : String) :
    trace (piece (.word word) :: bits) = .word word :: trace bits := by
  refine trace_piece ?_
  have hw : (Piece.word word).lexeme = Symbol.word word := rfl
  obtain ⟨h, -⟩ | ⟨h, -⟩ := Lexeme.word_cases word <;> rw [hw, h] <;> rfl

@[simp] theorem trace_literal (value : LiteralValue) (raw : String) :
    trace (piece (.literal value raw) :: bits) = .literal value raw :: trace bits := by
  cases value <;> rfl

@[simp] theorem trace_append : trace (bits ++ others) = trace bits ++ trace others := by
  rw [trace, Bit.pieces_append, List.filter_append]
  rfl

@[simp] theorem trace_grouped (need : Bool) : trace (Bit.grouped need bits) = trace bits := by
  cases need with
  | false => rfl
  | true => simp [Bit.grouped]

theorem trace_name (text : String) (span : Span) :
    trace (Expr.identifier ⟨text, none, span⟩).bits = [.word text] := by
  rw [Expr.bits, trace_word]
  rfl

theorem trace_joined (c : Char) (items : List (List Bit)) :
    trace (Bit.joined c items) = items.flatMap trace := by
  induction items with
  | nil => rfl
  | cons first items ih =>
    cases items with
    | nil => simp [Bit.joined]
    | cons second items =>
      rw [Bit.joined, trace_append, trace_mark, trace_gap, ih, List.flatMap_cons (x := first)]

end

/-- The trace of what a phrase stands for. -/
def Kind.trace : (k : Kind) → k.type → List Piece
  | .expr, e => Bit.trace e.bits
  | .property, p => Bit.trace p.bits
  | .param, p => Bit.trace p.bits
  | .lambda, f => Bit.trace f.bits
  | .body, b => Bit.trace b.bits
  | .statement, s => Bit.trace s.bits
  | .list of, as => as.flatMap of.trace

theorem trace_bitsOfList (c : Char) (es : List Expr) :
    trace (Bit.joined c (bitsOfList es)) = Kind.trace (.list .expr) es := by
  rw [trace_joined, bitsOfList_eq, List.flatMap_map]
  exact congrArg (es.flatMap ·) (funext fun e => trace_grouped _)

theorem trace_bitsOfProperties (c : Char) (ps : List Property) :
    trace (Bit.joined c (bitsOfProperties ps)) = Kind.trace (.list .property) ps := by
  rw [trace_joined, bitsOfProperties_eq, List.flatMap_map]
  rfl

theorem trace_bitsOfParams (c : Char) (ps : List Param) :
    trace (Bit.joined c (bitsOfParams ps)) = Kind.trace (.list .param) ps := by
  rw [trace_joined, bitsOfParams_eq, List.flatMap_map]
  rfl

theorem trace_bitsOfStatements (c : Char) (ss : List Statement) :
    trace (Bit.joined c (bitsOfStatements ss)) = Kind.trace (.list .statement) ss := by
  rw [trace_joined, bitsOfStatements_eq, List.flatMap_map]
  rfl

theorem trace_block (ss : List Statement) (span : Span) :
    trace (Body.block ss span).bits = Kind.trace (.list .statement) ss := by
  cases ss with
  | nil => rfl
  | cons s ss =>
    rw [← trace_bitsOfStatements ';', bitsOfStatements]
    simp [Body.bits]

/-! ## The trace of an input -/

section
variable {g : Grammar} {i j : Input} {lexeme : Lexeme} {text op : String}

theorem Input.trace_of_rest {token : Token} {rest : List Token} (hr : i.rest = token :: rest)
    (ht : token.lexeme.isTelling = true) : i.trace =
      ⟨token.lexeme, token.raw, token.lexeme.isOperator "=>" && i.skip.atMark '\x7b'⟩ ::
        i.skip.trace := by
  obtain ⟨last, _, stop⟩ := i
  obtain rfl : _ = token :: rest := hr
  have hflag : Input.atMark ⟨token.span, rest, stop⟩ '\x7b' =
      rest.head?.any (·.lexeme.isMark '\x7b') := by
    cases rest <;> rfl
  rw [trace, traceOfTokens, if_pos ht, ← hflag]
  rfl

theorem Input.trace_atMark {c : Char} (h : i.atMark c = true) : i.trace = i.skip.trace := by
  obtain ⟨token, rest, hr, ht⟩ := Input.lexeme?_eq_some_iff.1 (Input.atMark_iff.1 h)
  obtain ⟨last, _, stop⟩ := i
  obtain rfl : _ = token :: rest := hr
  rw [trace, traceOfTokens, ht]
  rfl

end

/-- The pieces are the tokens between the two inputs, but the marks. -/
def Traces (pieces : List Piece) (i j : Input) : Prop :=
  i.trace = pieces ++ j.trace

namespace Traces

variable {ps qs : List Piece} {i j l : Input} {c : Char}

theorem refl (i : Input) : Traces [] i i := rfl

theorem trans (h : Traces ps i j) (h' : Traces qs j l) : Traces (ps ++ qs) i l := by
  unfold Traces at h h' ⊢
  rw [h, h', List.append_assoc]

theorem of_eq (h : Traces ps i j) (he : ps = qs) : Traces qs i j := he ▸ h

theorem mark (h : i.atMark c = true) : Traces [] i i.skip :=
  Input.trace_atMark h

/-- A mark stands in front. -/
theorem behind (hm : i.atMark c = true) (h : Traces ps i.skip j) : Traces ps i j :=
  (mark hm).trans h

/-- A mark follows. -/
theorem before (h : Traces ps i j) (hm : j.atMark c = true) : Traces ps i j.skip :=
  (h.trans (mark hm)).of_eq (List.append_nil ps)

theorem statementEnd {inBody : Bool} (h : Traces ps i j)
    (he : Production.statementEnd inBody j = .ok l) : Traces ps i l := by
  obtain ⟨hm, rfl⟩ | ⟨-, rfl, -⟩ := statementEnd_eq_ok he
  · exact h.before hm
  · exact h

end Traces

namespace Input.Lexed

variable {g : Grammar} {i j : Input} {lexeme : Lexeme} {text op : String}

/-- A token with a fixed spelling leaves itself in the trace. -/
theorem trace (h : i.Lexed g) (hl : i.lexeme? = some lexeme) (hs : lexeme.spelling? = some text)
    (ht : lexeme.isTelling = true) :
    Traces [⟨lexeme, text, lexeme.isOperator "=>" && i.skip.atMark '\x7b'⟩] i i.skip := by
  obtain ⟨token, rest, hr, rfl⟩ := Input.lexeme?_eq_some_iff.1 hl
  have hf : token.lexeme.isFault = false := by
    cases hx : token.lexeme with
    | fault => rw [hx] at hs; cases hs
    | _ => rfl
  rw [Traces, trace_of_rest hr ht, (h.spelled hr hf).raw_eq hs]
  rfl

theorem trace_keyword (h : i.Lexed g) (hk : i.atKeyword text = true) :
    Traces [.keyword text] i i.skip :=
  h.trace (Input.atKeyword_iff.1 hk) rfl rfl

theorem trace_operator (h : i.Lexed g) (ho : i.lexeme? = some (.operator op)) (ha : op ≠ "=>") :
    Traces [.operator op] i i.skip := by
  have hn : (Lexeme.operator op).isOperator "=>" = false := beq_eq_false_iff_ne.2 ha
  have ht := h.trace ho rfl rfl
  rwa [hn] at ht

theorem trace_arrow (h : i.Lexed g) (ho : i.atOperator "=>" = true) :
    Traces [.arrow (i.skip.atMark '\x7b')] i i.skip := by
  have hy : (Lexeme.operator "=>").isOperator "=>" = true := beq_self_eq_true _
  have ht := h.trace (Input.atOperator_iff.1 ho) rfl rfl
  rwa [hy] at ht

theorem known (h : i.Lexed g) (hl : i.lexeme? = some lexeme) (hf : lexeme.isFault = false) :
    lexeme.Known := by
  obtain ⟨token, rest, hr, rfl⟩ := Input.lexeme?_eq_some_iff.1 hl
  exact (h.spelled hr hf).known hf

theorem trace_word (h : i.Lexed g)
    (hl : i.lexeme? = some (.name text) ∨ i.lexeme? = some (.keyword text)) :
    Traces [.word text] i i.skip := by
  obtain hl | hl := hl
  · rw [Piece.word, word_of_spelled (h.name hl)]
    exact h.trace hl rfl rfl
  · have hk : text ∈ Symbol.keywords := h.known hl rfl
    obtain ⟨hw, -⟩ | ⟨-, hn⟩ := Lexeme.word_cases text
    · rw [Piece.word, hw]
      exact h.trace hl rfl rfl
    · exact absurd hk hn

theorem trace_takeName? (h : i.Lexed g) {id : Identifier} (ht : i.takeName? = some (id, j)) :
    Traces [.word id.written] i j := by
  obtain ⟨text, hl, rfl, rfl⟩ := Input.takeName?_eq_some_iff.1 ht
  exact h.trace_word (.inl hl)

theorem trace_symbol (h : i.Lexed g)
    (hl : i.lexeme? = some (.operator op) ∨ i.lexeme? = some (.keyword op)) (ha : op ≠ "=>") :
    Traces [.symbol op] i i.skip := by
  obtain hl | hl := hl
  · have table : ∀ op ∈ Symbol.operators, Symbol.keywords.contains op = false := by
      decide
    rw [Piece.symbol, table op (h.known hl rfl)]
    exact h.trace_operator hl ha
  · have hm : op ∈ Symbol.keywords := h.known hl rfl
    have hk : Symbol.keywords.contains op = true := by simpa using hm
    rw [Piece.symbol, hk]
    exact h.trace hl rfl rfl

theorem trace_plainKey? (h : i.Lexed g) {key : Expr} {alone : Bool}
    (hk : i.rest.head?.bind plainKey? = some (key, alone)) :
    Traces (Bit.trace key.bits) i i.skip := by
  obtain ⟨⟨lexeme, raw, newline, span⟩, rest, hr, hk⟩ := Input.head?_bind_eq_some_iff.1 hk
  have hl : i.lexeme? = some lexeme := Input.lexeme?_eq_some_iff.2 ⟨_, rest, hr, rfl⟩
  cases lexeme with
  | name text => cases hk; exact (h.trace_word (.inl hl)).of_eq (trace_name _ _).symm
  | keyword text => cases hk; exact (h.trace_word (.inr hl)).of_eq (trace_name _ _).symm
  | text value => cases hk; exact trace_of_rest hr rfl
  | number value => cases hk; exact trace_of_rest hr rfl
  | mark | operator | fault => cases hk

theorem trace_atom? (h : i.Lexed g) {e : Expr} (ha : i.rest.head?.bind atom? = some e) :
    Traces (Bit.trace e.bits) i i.skip := by
  obtain ⟨token, rest, hr, ha⟩ := Input.head?_bind_eq_some_iff.1 ha
  have hl : i.lexeme? = some token.lexeme := Input.lexeme?_eq_some_iff.2 ⟨_, rest, hr, rfl⟩
  cases atomOf_of_atom? ha with
  | name => exact (h.trace_word (.inl hl)).of_eq (trace_name _ _).symm
  | number | text => exact trace_of_rest hr rfl
  | true | false | null | this =>
    obtain rfl := (h.spelled hr rfl).raw_eq rfl
    exact h.trace hl rfl rfl

end Input.Lexed

/-! ## Phrases -/

/-- The tokens that the phrase takes are those of what it stands for; the operand before it is
    in front of them. -/
def Phrase.Traced : {k : Kind} → Phrase k → Input → k.type → Input → Prop
  | _, .items (k := k) item _, i, as, j =>
    (∀ {i a j}, item.Traced i a j → Traces (k.trace a) i j) → Traces (as.flatMap k.trace) i j
  | _, .ladder levels, i, e, j => levels ⊆ Operator.levels → Traces (trace e.bits) i j
  | _, .climb level tighter left, i, e, j => level :: tighter ⊆ Operator.levels →
    ∀ {before}, Traces (trace left.bits) before i → Traces (trace e.bits) before j
  | _, .links operand, i, e, j | _, .link operand, i, e, j =>
    ∀ {before}, Traces (trace operand.bits) before i → Traces (trace e.bits) before j
  | k, _, i, a, j => Traces (k.trace a) i j

theorem trace_binaryNode (level : Level) (op : String) (l r : Expr) :
    trace (binaryNode level op l r).bits = trace l.bits ++ .symbol op :: trace r.bits := by
  unfold binaryNode
  split <;> simp [Expr.bits]

theorem trace_of_reads {g : Grammar} {k : Kind} {c : Phrase k} {i j : Input} {a : k.type}
    (h : Reads c i a j) (hi : i.Lexed g) : c.Traced i a j := by
  induction h with
  | itemsClose hc => exact fun _ => .mark hc
  | itemsMore _ hr hm _ iha ihr =>
    intro hp
    exact ((hp (iha hi)).before hm).trans (ihr (hi.leaves hr.leaves).skip hp)
  | itemsLast _ _ _ hc iha =>
    exact fun hp => ((hp (iha hi)).before hc).of_eq (List.append_nil _).symm
  | othersNone => exact .refl _
  | othersMore hm hr _ ih ihr =>
    exact (Traces.behind hm (ih hi.skip)).trans (ihr (hi.skip.leaves hr.leaves))
  | single hr _ ih ihr =>
    exact (Traces.trans (ih hi) (ihr (hi.leaves hr.leaves))).of_eq (List.append_nil _)
  | several hr _ ih ihr =>
    exact (Traces.trans (ih hi) (ihr (hi.leaves hr.leaves))).of_eq
      (by simp [Kind.trace, Expr.bits, trace_bitsOfList])
  | plainParam ht => exact (hi.trace_takeName? ht).of_eq (by simp [Kind.trace, Param.bits])
  | defaultParam ht ho _ ih =>
    have hj := hi.leaves (Input.leaves_of_takeName? ht)
    have heq := hj.trace_operator (Input.atOperator_iff.1 ho) (by decide)
    exact (((hi.trace_takeName? ht).trans heq).trans (ih hj.skip)).of_eq
      (by simp [Kind.trace, Param.bits])
  | bodyEnd hc => exact .mark hc
  | bodyEmpty hm _ ih => exact .behind hm (ih hi.skip)
  | bodyNext _ _ hr _ ih ihr => exact Traces.trans (ih hi) (ihr (hi.leaves hr.leaves))
  | block hm _ ih => exact (Traces.behind hm (ih hi.skip)).of_eq (trace_block _ _).symm
  | namedFunction hk ht hm hr _ ihp ihb =>
    have hj := hi.skip.leaves (Input.leaves_of_takeName? ht)
    have hn := hi.skip.trace_takeName? ht
    have hps := Traces.behind hm (ihp hj.skip id)
    obtain ⟨text, -, rfl, -⟩ := Input.takeName?_eq_some_iff.1 ht
    exact ((((hi.trace_keyword hk).trans hn).trans hps).trans
      (ihb (hj.skip.leaves hr.leaves))).of_eq
        (by simp [Kind.trace, Lambda.bits, trace_bitsOfParams]; rfl)
  | namelessFunction hk hm hr _ ihp ihb =>
    have hps := Traces.behind hm (ihp hi.skip.skip id)
    exact (((hi.trace_keyword hk).trans hps).trans (ihb (hi.skip.skip.leaves hr.leaves))).of_eq
      (by simp [Kind.trace, Lambda.bits, trace_bitsOfParams])
  | paramList hm _ ih => exact .behind hm (ih hi.skip id)
  | soleParam ht => exact (hi.trace_takeName? ht).of_eq (by simp [Kind.trace, Param.bits])
  | memberName hl => exact (hi.trace_word hl).of_eq (trace_name _ _).symm
  | computedProperty hb hr hc hm _ ihk ihv =>
    have hj := hi.skip.leaves hr.leaves
    have hk := ((Traces.behind hb (ihk hi.skip)).before hc).before hm
    exact (hk.trans (ihv hj.skip.skip)).of_eq (by simp [Kind.trace, Property.bits])
  | keyedProperty hk hm _ ih =>
    exact (((hi.trace_plainKey? hk).before hm).trans (ih hi.skip.skip)).of_eq
      (by simp [Kind.trace, Property.bits])
  | shorthand hk => exact hi.trace_plainKey? hk
  | atom ha => exact hi.trace_atom? ha
  | functionValue _ _ ih => exact ih hi
  | parens hm _ hc ih => exact (Traces.behind hm (ih hi.skip)).before hc
  | array hm _ ih =>
    exact (Traces.behind hm (ih hi.skip id)).of_eq
      (by simp [Kind.trace, Expr.bits, trace_bitsOfList])
  | object hm _ ih =>
    exact (Traces.behind hm (ih hi.skip id)).of_eq
      (by simp [Kind.trace, Expr.bits, trace_bitsOfProperties])
  | named hm _ ih =>
    intro _ ho
    exact ((ho.before hm).trans (ih hi.skip)).of_eq (by simp [Kind.trace, Expr.bits])
  | namedOptional hq _ ih =>
    intro _ ho
    have hq := hi.trace_operator (Input.atOperator_iff.1 hq) (by decide)
    exact ((ho.trans hq).trans (ih hi.skip)).of_eq (by simp [Kind.trace, Expr.bits])
  | computed hm _ hc ih =>
    intro _ ho
    exact (((ho.before hm).trans (ih hi.skip)).before hc).of_eq
      (by simp [Kind.trace, Expr.bits])
  | computedOptional hq hm _ hc ih =>
    intro _ ho
    have hq := hi.trace_operator (Input.atOperator_iff.1 hq) (by decide)
    exact ((((ho.trans hq).before hm).trans (ih hi.skip.skip)).before hc).of_eq
      (by simp [Kind.trace, Expr.bits])
  | call hm _ ih =>
    intro _ ho
    exact ((ho.before hm).trans (ih hi.skip id)).of_eq
      (by simp [Kind.trace, Expr.bits, trace_bitsOfList])
  | callOptional hq hm _ ih =>
    intro _ ho
    have hq := hi.trace_operator (Input.atOperator_iff.1 hq) (by decide)
    exact (((ho.trans hq).before hm).trans (ih hi.skip.skip id)).of_eq
      (by simp [Kind.trace, Expr.bits, trace_bitsOfList])
  | linksNone => exact fun ho => ho
  | linksMore hr _ ih ihr => exact fun ho => ihr (hi.leaves hr.leaves) (ih hi ho)
  | chain hr _ ih ihr => exact ihr (hi.leaves hr.leaves) (ih hi)
  | noTrailing _ _ ih => exact ih hi
  | trailingUpdate hr ho _ _ ih =>
    obtain ⟨hl, hm⟩ := operatorOf?_eq_some_iff.1 ho
    have hu := (hi.leaves hr.leaves).trace_operator hl (by rintro rfl; revert hm; decide)
    exact (Traces.trans (ih hi) hu).of_eq (by simp [Kind.trace, Expr.bits])
  | leadingUpdate ho _ _ ih =>
    obtain ⟨hl, hm⟩ := operatorOf?_eq_some_iff.1 ho
    have hu := hi.trace_operator hl (by rintro rfl; revert hm; decide)
    exact (hu.trans (ih hi.skip)).of_eq (by simp [Kind.trace, Expr.bits])
  | unary _ hu _ ih =>
    have hl := unaryOf?_eq_some_iff.1 hu
    have hs := hi.trace_symbol (hl.imp And.left And.left)
      (isSymbol_unary (hl.imp And.right And.right)).2
    have hgap : ∀ (need : Bool) bits,
        trace ((if need then [gap] else []) ++ bits) = trace bits := by
      intro need bits
      cases need <;> rfl
    refine (hs.trans (ih hi.skip)).of_eq ?_
    rw [Kind.trace, Kind.trace, Expr.bits, trace_symbol, hgap, trace_grouped]
    rfl
  | noPrefix _ _ _ ih => exact ih hi
  | noPower _ _ ih => exact ih hi
  | power hr ho _ ih ihr =>
    have hj := hi.leaves hr.leaves
    have hs := hj.trace_symbol (.inl (Input.atOperator_iff.1 ho)) (by decide)
    exact ((Traces.trans (ih hi) hs).trans (ihr hj.skip)).of_eq (by simp [Kind.trace, Expr.bits])
  | ladderTop _ ih => exact fun _ => ih hi
  | ladderStep hr _ ih ihr =>
    intro hl
    exact ihr (hi.leaves hr.leaves) hl (ih hi fun _ hm => hl (List.mem_cons_of_mem _ hm))
  | climbStop => exact fun _ _ ho => ho
  | climbMore ho hr _ ihr ih =>
    intro hl before hleft
    obtain ⟨hlex, hop⟩ := binaryOf?_eq_some_iff.1 ho
    have hright := ihr hi.skip fun _ hm => hl (List.mem_cons_of_mem _ hm)
    have hs := hi.trace_symbol hlex
      (isSymbol_binary (.inr ⟨_, hl List.mem_cons_self, rfl, hop⟩)).2
    refine ih (hi.skip.leaves hr.leaves) hl (((hleft.trans hs).trans hright).of_eq ?_)
    rw [trace_binaryNode, List.append_assoc, List.singleton_append]
  | noConditional _ _ ih => exact ih hi (List.Subset.refl _)
  | conditional hr ho hc hm _ ih ihc iha =>
    have hj := hi.leaves hr.leaves
    have hq := hj.trace_operator (Input.atOperator_iff.1 ho) (by decide)
    have hthen := ((ih hi (List.Subset.refl _)).trans hq).trans (ihc hj.skip)
    exact ((hthen.before hm).trans (iha (hj.skip.leaves hc.leaves).skip)).of_eq
      (by simp [Kind.trace, Expr.bits])
  | blockArrow _ hr ho hb ihp ihb =>
    have hj := hi.leaves hr.leaves
    have harrow := hj.trace_arrow ho
    rw [hb.atMark_of_block] at harrow
    have hblock := (printable_of_reads hb hj.skip).1
    exact ((Traces.trans (ihp hi) harrow).trans (ihb hj.skip)).of_eq
      (by simp [Kind.trace, Expr.bits, trace_bitsOfParams, hblock])
  | arrow _ hr ho hm _ ihp ihe =>
    have hj := hi.leaves hr.leaves
    have harrow := hj.trace_arrow ho
    rw [hm] at harrow
    exact ((Traces.trans (ihp hi) harrow).trans (ihe hj.skip)).of_eq
      (by simp [Kind.trace, Expr.bits, Body.bits, Body.isBlock, trace_bitsOfParams])
  | noAssignment _ _ _ ih => exact ih hi
  | assignment _ hr ho _ _ ih ihr =>
    have hj := hi.leaves hr.leaves
    obtain ⟨hlex, hop⟩ := operatorOf?_eq_some_iff.1 ho
    have hs := hj.trace_operator hlex (isOperator_assignment hop).2
    exact ((Traces.trans (ih hi) hs).trans (ihr hj.skip)).of_eq (by simp [Kind.trace, Expr.bits])
  | declaration _ _ ih => exact ih hi
  | bareReturn hk _ he => exact (hi.trace_keyword hk).statementEnd he
  | «return» hk _ _ he ih =>
    exact (((hi.trace_keyword hk).trans (ih hi.skip)).statementEnd he).of_eq
      (by simp [Kind.trace, Statement.bits])
  | expression _ _ _ he ih =>
    exact (Traces.statementEnd (ih hi) he).of_eq (by simp [Kind.trace, Statement.bits])

theorem trace_of_readsAll {g : Grammar} {i : Input} {ss : List Statement} (h : ReadsAll i ss)
    (hi : i.Lexed g) : i.trace = Kind.trace (.list .statement) ss := by
  induction h with
  | done he => rw [Input.trace, he]; rfl
  | empty hm _ ih => rw [Input.trace_atMark hm, ih hi.skip]
  | next _ hr _ ih =>
    have hs : Traces _ _ _ := trace_of_reads hr hi
    rw [Traces, ih (hi.leaves hr.leaves)] at hs
    exact hs.trans List.flatMap_cons.symm

/-! ## Texts with the trace of their pieces -/

section
variable {g : Grammar} {p : Piece} {bits : List Bit} {ds : List Char} {cursor : Cursor}

/-- What joins with the text behind it ends there, but for a whole number before a point. -/
theorem Piece.Joins.ends_or (h : p.Joins ds) : p.lexeme.Ends p.raw.toList ds ∨
    ∃ value more, p.lexeme = .number value ∧ p.raw.toList.all isDigit = true ∧
      ds = '.' :: more := by
  obtain ⟨lexeme, raw, block⟩ := p
  cases lexeme with
  | number value =>
    by_cases hw : raw.toList.all isDigit = true
    · cases ds with
      | nil => exact .inl ⟨h, fun _ => nofun⟩
      | cons d ds =>
        by_cases hd : d = '.'
        · exact .inr ⟨value, ds, rfl, hw, by rw [hd]⟩
        · exact .inl ⟨h, fun _ hp => hd (Option.some.inj hp)⟩
    · exact .inl ⟨h, fun hd => absurd hd hw⟩
  | _ => exact .inl h

theorem traceOfTokens_cons {token : Token} (h : token.lexeme.isTelling = true)
    (rest : List Token) : traceOfTokens (token :: rest) =
      ⟨token.lexeme, token.raw,
        token.lexeme.isOperator "=>" && rest.head?.any (·.lexeme.isMark '\x7b')⟩ ::
        traceOfTokens rest := by
  rw [traceOfTokens, if_pos h]

/-- A whole number before a point is not read as itself. -/
theorem trace_point_ne (hp : p.lexeme.Alone g p.raw) (hw : p.raw.toList.all isDigit = true)
    (rest : List Piece) :
    traceOfTokens (Token.ofTextFrom g cursor (p.raw.toList ++ '.' :: ds)) ≠ p :: rest := by
  intro ht
  obtain ⟨c, cs, hraw, hb, -⟩ := hp
  rw [hraw] at hw ht
  have hc : isDigit c = true := by
    rw [List.all_cons, Bool.and_eq_true] at hw
    exact hw.1
  have hb' : Trivia.begins (c :: (cs ++ '.' :: ds)) = false := by
    have hslash : (c == '/') = false := by
      rw [beq_eq_false_iff_ne]
      rintro rfl
      exact absurd hc (by decide)
    simp only [Trivia.begins, hslash, Bool.false_and, Bool.or_false] at hb ⊢
    exact hb
  have hread := (@Lexeme.start_of_isDigit g c (cs ++ '.' :: ds) hc).read_eq
  have hlen := Number.length_lt_read_point hw ds
  rw [List.cons_append] at ht hlen
  have htelling : (Number.read (c :: (cs ++ '.' :: ds))).1.isTelling = true := by
    obtain ⟨value, hv⟩ | ⟨fault, hv⟩ := Number.read_lexeme (c :: (cs ++ '.' :: ds)) <;> rw [hv] <;>
      rfl
  have hhead : p.raw.toList =
      c :: (cs ++ '.' :: ds).take ((Number.read (c :: (cs ++ '.' :: ds))).2 - 1) := by
    rw [Token.ofTextFrom_of_not_begins hb', hread] at ht
    dsimp only at ht
    split at ht <;>
    · rw [traceOfTokens_cons htelling] at ht
      rw [← (List.cons.inj ht).1]
      exact String.toList_ofList
  have hcount := congrArg List.length (hraw.symm.trans hhead)
  simp only [List.length_cons, List.length_take, List.length_append] at hcount hlen
  omega

/-- The piece is clear of a text that it ends before, if its block is the one that follows. -/
theorem clear_of_ends (he : p.lexeme.Ends p.raw.toList ds) (hb : (p.lexeme.isOperator "=>" &&
    (Token.ofTextFrom g cursor ds).head?.any (·.lexeme.isMark '\x7b')) = p.block) :
    p.Clear ds := by
  obtain ⟨lexeme, raw, block⟩ := p
  cases lexeme with
  | number => exact he.2
  | operator op =>
    rintro rfl ⟨more, rfl⟩
    have hm : (Lexeme.mark '\x7b').Alone g "\x7b" := Lexeme.alone_mark g (by decide)
    have hends : (Lexeme.mark '\x7b').Ends "\x7b".toList more := fun hc => absurd hc (by decide)
    obtain ⟨span, cursor', ht⟩ := Token.ofTextFrom_alone hm hends (cursor.step ' ')
    have hbrace : "\x7b".toList ++ more = '\x7b' :: more := rfl
    rw [List.cons_append, Token.ofTextFrom_space, List.singleton_append, ← hbrace, ht] at hb
    exact hb.symm
  | _ => trivial

/-- A text with the trace of its pieces has its pieces for tokens: the pieces are apart. -/
theorem apart_of_trace (ha : Apart false bits []) (hw : Whole g bits)
    (ht : traceOfTokens (Token.ofTextFrom g cursor (Bit.text bits)) = trace bits) :
    Apart true bits [] := by
  induction bits generalizing cursor with
  | nil => trivial
  | cons bit bits ih =>
    cases bit with
    | gap =>
      rw [Bit.text_gap, Token.ofTextFrom_space] at ht
      exact ih ha hw ht
    | piece p =>
      obtain ⟨⟨hj, -⟩, ha⟩ := apart_piece.1 ha
      obtain ⟨hp, hw⟩ := whole_piece.1 hw
      rw [apart_piece, List.append_nil]
      rw [List.append_nil] at hj
      rw [Bit.text_piece] at ht
      obtain he | ⟨value, more, hl, hd, hds⟩ := hj.ends_or
      · obtain ⟨span, cursor', htokens⟩ := Token.ofTextFrom_alone hp he cursor
        rw [htokens] at ht
        cases hm : p.lexeme.isTelling with
        | true =>
          rw [traceOfTokens_cons hm, trace_piece hm] at ht
          obtain ⟨hhead, ht⟩ := List.cons.inj ht
          exact ⟨⟨hj, fun _ => clear_of_ends he (congrArg Piece.block hhead)⟩, ih ha hw ht⟩
        | false =>
          have hclear : p.Clear (Bit.text bits) := by
            obtain ⟨lexeme, raw, block⟩ := p
            cases lexeme with
            | mark => trivial
            | _ => cases hm
          rw [traceOfTokens, if_neg (by simp [hm]), trace, Bit.pieces_piece,
            List.filter_cons_of_neg (by simp [hm])] at ht
          exact ⟨⟨hj, fun _ => hclear⟩, ih ha hw ht⟩
      · rw [hds, trace_piece (by rw [hl]; rfl)] at ht
        exact absurd ht (trace_point_ne hp hd _)

end

end TemplateExpr
