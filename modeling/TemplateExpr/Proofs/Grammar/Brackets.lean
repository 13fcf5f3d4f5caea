/-
  Brackets come in pairs: a phrase takes tokens whose parentheses, brackets and braces are
  properly nested.

  * `nests_of_reads`: for every phrase; the end of a series takes its closing bracket with it.
  * `nested_of_readsAll`: for a program.
  * `Nested.closesBeforeArrow`: the search for the partner of a parenthesis passes over nested
    tokens.
-/
import TemplateExpr.Proofs.Grammar.Reads

namespace TemplateExpr
open Production

/-- The brackets and their partners. -/
def bracketPairs : List (Char × Char) :=
  [('(', ')'), ('[', ']'), ('{', '}')]

def Lexeme.isBracket (lexeme : Lexeme) : Bool :=
  bracketPairs.any fun (opening, closing) => lexeme.isMark opening || lexeme.isMark closing

/-- The brackets of the tokens are properly nested. -/
inductive Nested : List Token → Prop
  | nil : Nested []
  | plain {token} : token.lexeme.isBracket = false → Nested [token]
  | pair {opening closing o c tokens} :
    (opening, closing) ∈ bracketPairs → o.lexeme = .mark opening → c.lexeme = .mark closing →
    Nested tokens → Nested (o :: tokens ++ [c])
  | append {front back} : Nested front → Nested back → Nested (front ++ back)

/-- The tokens between the two inputs are nested. -/
def NestedTo (i j : Input) : Prop :=
  ∃ tokens, i.rest = tokens ++ j.rest ∧ Nested tokens

/-- The tokens between the two inputs are nested, but for a closing bracket at the end. -/
def ClosedTo (closing : Char) (i j : Input) : Prop :=
  ∃ tokens c, i.rest = tokens ++ c :: j.rest ∧ Nested tokens ∧ c.lexeme = .mark closing

section
variable {i j l : Input}

theorem NestedTo.refl (i : Input) : NestedTo i i :=
  ⟨[], rfl, .nil⟩

theorem NestedTo.trans (h : NestedTo i j) (h' : NestedTo j l) : NestedTo i l := by
  obtain ⟨front, hf, hn⟩ := h
  obtain ⟨back, hb, hn'⟩ := h'
  exact ⟨front ++ back, by rw [hf, hb, List.append_assoc], hn.append hn'⟩

theorem NestedTo.closedTo {closing : Char} (h : NestedTo i j) (h' : ClosedTo closing j l) :
    ClosedTo closing i l := by
  obtain ⟨front, hf, hn⟩ := h
  obtain ⟨back, c, hb, hn', hc⟩ := h'
  exact ⟨front ++ back, c, by rw [hf, hb, List.append_assoc], hn.append hn', hc⟩

/-- A token that is no bracket is read. -/
theorem nestedTo_skip {lexeme : Lexeme} (h : i.lexeme? = some lexeme)
    (hb : lexeme.isBracket = false) : NestedTo i i.skip := by
  obtain ⟨token, rest, hr, rfl⟩ := Input.lexeme?_eq_some_iff.1 h
  refine ⟨[token], ?_, .plain hb⟩
  rw [Input.skip, hr]
  rfl

theorem nestedTo_skip_mark {c : Char} (h : i.atMark c = true)
    (hb : (Lexeme.mark c).isBracket = false) : NestedTo i i.skip :=
  nestedTo_skip (Input.atMark_iff.1 h) hb

theorem isBracket_eq_false {lexeme : Lexeme} (h : ∀ c, lexeme ≠ .mark c) :
    lexeme.isBracket = false := by
  cases lexeme with
  | mark c => exact absurd rfl (h c)
  | _ => rfl

theorem nestedTo_skip_operator {symbol : String} (h : i.atOperator symbol = true) :
    NestedTo i i.skip :=
  nestedTo_skip (Input.atOperator_iff.1 h) (isBracket_eq_false (by simp))

theorem nestedTo_skip_keyword {word : String} (h : i.atKeyword word = true) :
    NestedTo i i.skip :=
  nestedTo_skip (Input.atKeyword_iff.1 h) (isBracket_eq_false (by simp))

theorem nestedTo_takeName? {id : Identifier} (h : i.takeName? = some (id, j)) :
    NestedTo i j := by
  obtain ⟨text, hl, -, rfl⟩ := Input.takeName?_eq_some_iff.1 h
  exact nestedTo_skip hl (isBracket_eq_false (by simp))

theorem nestedTo_operatorOf? {operators : List String} {op : String}
    (h : operatorOf? operators i = some op) : NestedTo i i.skip :=
  nestedTo_skip (operatorOf?_eq_some_iff.1 h).1 (isBracket_eq_false (by simp))

theorem nestedTo_binaryOf? {operators : List String} {op : String}
    (h : binaryOf? operators i = some op) : NestedTo i i.skip := by
  obtain ⟨h | h, -⟩ := binaryOf?_eq_some_iff.1 h <;>
    exact nestedTo_skip h (isBracket_eq_false (by simp))

theorem nestedTo_unaryOf? {op : String} (h : unaryOf? i = some op) : NestedTo i i.skip := by
  obtain ⟨h, -⟩ | ⟨h, -⟩ := unaryOf?_eq_some_iff.1 h <;>
    exact nestedTo_skip h (isBracket_eq_false (by simp))

theorem nestedTo_plainKey? {found : Expr × Bool}
    (h : i.rest.head?.bind plainKey? = some found) : NestedTo i i.skip := by
  obtain ⟨⟨lexeme, raw, newline, span⟩, rest, hr, ht⟩ := Input.head?_bind_eq_some_iff.1 h
  refine nestedTo_skip (Input.lexeme?_eq_some_iff.2 ⟨_, rest, hr, rfl⟩) (isBracket_eq_false ?_)
  cases lexeme with
  | mark c => cases ht
  | _ => simp

theorem nestedTo_atom? {e : Expr} (h : i.rest.head?.bind atom? = some e) :
    NestedTo i i.skip := by
  obtain ⟨token, rest, hr, ht⟩ := Input.head?_bind_eq_some_iff.1 h
  refine nestedTo_skip (Input.lexeme?_eq_some_iff.2 ⟨_, rest, hr, rfl⟩) ?_
  cases atomOf_of_atom? ht <;> rfl

theorem closedTo_skip {c : Char} (h : i.atMark c = true) : ClosedTo c i i.skip := by
  obtain ⟨token, rest, hr, ht⟩ := Input.lexeme?_eq_some_iff.1 (Input.atMark_iff.1 h)
  refine ⟨[], token, ?_, .nil, ht⟩
  rw [Input.skip, hr]
  rfl

/-- An opening bracket and all up to its partner. -/
theorem nestedTo_pair {opening closing : Char} (hp : (opening, closing) ∈ bracketPairs)
    (ho : i.atMark opening = true) (h : ClosedTo closing i.skip j) : NestedTo i j := by
  obtain ⟨token, rest, hr, ht⟩ := Input.lexeme?_eq_some_iff.1 (Input.atMark_iff.1 ho)
  obtain ⟨tokens, c, hc, hn, hl⟩ := h
  refine ⟨token :: tokens ++ [c], ?_, .pair hp ht hl hn⟩
  rw [Input.skip, hr] at hc
  dsimp only at hc
  rw [hr, hc]
  simp

theorem nestedTo_statementEnd {inBody : Bool} (h : statementEnd inBody i = .ok j) :
    NestedTo i j := by
  obtain ⟨hm, rfl⟩ | ⟨-, rfl, -⟩ := statementEnd_eq_ok h
  · exact nestedTo_skip_mark hm (by decide)
  · exact .refl _

end

/-! ## Phrases -/

/-- What a phrase takes, by its brackets. The items of a series bring no closing bracket. -/
def Phrase.Nests {k : Kind} (i j : Input) : Phrase k → Prop
  | .items item close => (∀ {i j}, item.Nests i j → NestedTo i j) → ClosedTo close i j
  | .blockStatements => ClosedTo '}' i j
  | _ => NestedTo i j

theorem nests_of_reads {k : Kind} {c : Phrase k} {i j : Input} {a : k.type}
    (h : Reads c i a j) : c.Nests i j := by
  induction h with
  | itemsClose hc => exact fun _ => closedTo_skip hc
  | itemsMore _ _ hm _ ihi ihr =>
    exact fun hp => ((hp ihi).trans (nestedTo_skip_mark hm (by decide))).closedTo (ihr hp)
  | itemsLast _ _ _ hl ihi => exact fun hp => (hp ihi).closedTo (closedTo_skip hl)
  | othersNone => exact .refl _
  | othersMore hm _ _ ihe ihr => exact ((nestedTo_skip_mark hm (by decide)).trans ihe).trans ihr
  | single _ _ ihe ihr => exact ihe.trans ihr
  | several _ _ ihe ihr => exact ihe.trans ihr
  | plainParam ht => exact nestedTo_takeName? ht
  | defaultParam ht ho _ ihe =>
    exact ((nestedTo_takeName? ht).trans (nestedTo_skip_operator ho)).trans ihe
  | bodyEnd hc => exact closedTo_skip hc
  | bodyEmpty hs _ ihr => exact (nestedTo_skip_mark hs (by decide)).closedTo ihr
  | bodyNext _ _ _ _ ihs ihr => exact NestedTo.closedTo ihs ihr
  | block hb _ ihs => exact nestedTo_pair (by decide) hb ihs
  | namedFunction hf ht ho _ _ ihp ihb =>
    exact (((nestedTo_skip_keyword hf).trans (nestedTo_takeName? ht)).trans
      (nestedTo_pair (by decide) ho (ihp id))).trans ihb
  | namelessFunction hf ho _ _ ihp ihb =>
    exact ((nestedTo_skip_keyword hf).trans (nestedTo_pair (by decide) ho (ihp id))).trans ihb
  | paramList ho _ ihp => exact nestedTo_pair (by decide) ho (ihp id)
  | soleParam ht => exact nestedTo_takeName? ht
  | memberName h =>
    obtain h | h := h <;> exact nestedTo_skip h (isBracket_eq_false (by simp))
  | computedProperty hc _ hb hm _ ihk ihv =>
    have hk := nestedTo_pair (by decide) hc (NestedTo.closedTo ihk (closedTo_skip hb))
    exact (hk.trans (nestedTo_skip_mark hm (by decide))).trans ihv
  | keyedProperty hk hm _ ihv =>
    exact ((nestedTo_plainKey? hk).trans (nestedTo_skip_mark hm (by decide))).trans ihv
  | shorthand hk => exact nestedTo_plainKey? hk
  | atom ha => exact nestedTo_atom? ha
  | functionValue _ _ ih => exact ih
  | parens hm _ hc ihe =>
    exact nestedTo_pair (by decide) hm (NestedTo.closedTo ihe (closedTo_skip hc))
  | array hm _ ihe => exact nestedTo_pair (by decide) hm (ihe id)
  | object hm _ ihp => exact nestedTo_pair (by decide) hm (ihp id)
  | named hd _ ihp => exact (nestedTo_skip_mark hd (by decide)).trans ihp
  | namedOptional hq _ ihp => exact (nestedTo_skip_operator hq).trans ihp
  | computed hm _ hc ihp =>
    exact nestedTo_pair (by decide) hm (NestedTo.closedTo ihp (closedTo_skip hc))
  | computedOptional hq hm _ hc ihp =>
    exact (nestedTo_skip_operator hq).trans
      (nestedTo_pair (by decide) hm (NestedTo.closedTo ihp (closedTo_skip hc)))
  | call hm _ ihe => exact nestedTo_pair (by decide) hm (ihe id)
  | callOptional hq hm _ ihe =>
    exact (nestedTo_skip_operator hq).trans (nestedTo_pair (by decide) hm (ihe id))
  | linksNone => exact .refl _
  | linksMore _ _ iho ihr => exact iho.trans ihr
  | chain _ _ iho ihr => exact iho.trans ihr
  | noTrailing _ _ ih => exact ih
  | trailingUpdate _ ho _ _ ih => exact ih.trans (nestedTo_operatorOf? ho)
  | leadingUpdate ho _ _ ih => exact (nestedTo_operatorOf? ho).trans ih
  | unary _ hu _ ih => exact (nestedTo_unaryOf? hu).trans ih
  | noPrefix _ _ _ ih => exact ih
  | noPower _ _ ih => exact ih
  | power _ ho _ ih ihr => exact (ih.trans (nestedTo_skip_operator ho)).trans ihr
  | ladderTop _ ih => exact ih
  | ladderStep _ _ ih ihr => exact ih.trans ihr
  | climbStop => exact .refl _
  | climbMore ho _ _ ihr ih => exact ((nestedTo_binaryOf? ho).trans ihr).trans ih
  | noConditional _ _ ih => exact ih
  | conditional _ ho _ hm _ ih ihc iha =>
    have hc := (ih.trans (nestedTo_skip_operator ho)).trans ihc
    exact (hc.trans (nestedTo_skip_mark hm (by decide))).trans iha
  | blockArrow _ _ ho _ ihp ihb => exact (ihp.trans (nestedTo_skip_operator ho)).trans ihb
  | arrow _ _ ho _ _ ihp ihe => exact (ihp.trans (nestedTo_skip_operator ho)).trans ihe
  | noAssignment _ _ _ ih => exact ih
  | assignment _ _ ho _ _ ih ihr => exact (ih.trans (nestedTo_operatorOf? ho)).trans ihr
  | declaration _ _ ih => exact ih
  | bareReturn hk _ he => exact (nestedTo_skip_keyword hk).trans (nestedTo_statementEnd he)
  | «return» hk _ _ he ih =>
    exact ((nestedTo_skip_keyword hk).trans ih).trans (nestedTo_statementEnd he)
  | expression _ _ _ he ih => exact ih.trans (nestedTo_statementEnd he)

/-- The tokens of a program are nested. -/
theorem nested_of_readsAll {i : Input} {ss : List Statement} (h : ReadsAll i ss) :
    Nested i.rest := by
  induction h with
  | done he => rw [he]; exact .nil
  | empty hm _ ih =>
    obtain ⟨tokens, hrest, hn⟩ := nestedTo_skip_mark hm (by decide)
    rw [hrest]
    exact hn.append ih
  | next _ hr _ ih =>
    obtain ⟨tokens, hrest, hn⟩ := nests_of_reads hr
    rw [hrest]
    exact hn.append ih

/-! ## The search for a partner -/

/-- The search for the partner of a parenthesis passes over nested tokens. -/
theorem Nested.closesBeforeArrow {tokens : List Token} (h : Nested tokens) {depth : Nat}
    (hd : 1 ≤ depth) (rest : List Token) :
    Production.closesBeforeArrow depth (tokens ++ rest) =
      Production.closesBeforeArrow depth rest := by
  induction h generalizing depth rest with
  | nil => rfl
  | @plain token hb =>
    have ho : token.lexeme.isMark '(' = false := by
      cases ho : token.lexeme.isMark '(' with
      | false => rfl
      | true => rw [Lexeme.isMark_iff.1 ho] at hb; cases hb
    have hc : token.lexeme.isMark ')' = false := by
      cases hc : token.lexeme.isMark ')' with
      | false => rfl
      | true => rw [Lexeme.isMark_iff.1 hc] at hb; cases hb
    rw [List.singleton_append, Production.closesBeforeArrow, ho, hc]
    rfl
  | @pair opening closing o c tokens hp ho hc _ ih =>
    simp only [bracketPairs, List.mem_cons, Prod.mk.injEq, List.not_mem_nil, or_false] at hp
    rw [List.append_assoc, List.cons_append, Production.closesBeforeArrow, ho]
    obtain ⟨rfl, rfl⟩ | ⟨rfl, rfl⟩ | ⟨rfl, rfl⟩ := hp
    · rw [if_pos (by decide), ih (by omega), List.singleton_append, Production.closesBeforeArrow, hc,
        if_neg (by decide), if_pos (by decide), if_neg (by omega), Nat.add_sub_cancel]
    all_goals
      rw [if_neg (by decide), if_neg (by decide), ih hd, List.singleton_append,
        Production.closesBeforeArrow, hc, if_neg (by decide), if_neg (by decide)]
  | append _ _ ihf ihb => rw [List.append_assoc, ihf hd, ihb hd]

end TemplateExpr
