/-
  What stands behind a phrase. A phrase that is read to the end of the input is read the same when
  a semicolon and any more tokens follow, since no production goes on at a semicolon. Only a
  statement ends differently: it takes the semicolon with it. The test for an arrow function looks
  further ahead than the productions do, but not behind the parenthesis that closes its first one.

  * `atArrow_followed`: the test.
  * `Reads.followed`: one phrase.
  * `ReadsAll.followed`: the statements of a program, and those of the program that follows.
-/
import TemplateExpr.Proofs.Grammar.Lookahead
import TemplateExpr.Proofs.Printing.RoundTrip

namespace TemplateExpr
open Source Production

/-- The input with more tokens behind its last one. -/
def Input.followed (i : Input) (tail : List Token) : Input :=
  { i with rest := i.rest ++ tail }

/-- The tokens begin with a semicolon. -/
def Separates (tail : List Token) : Prop :=
  tail.head?.map (·.lexeme) = some (.mark ';')

/-! ## Tests of the next token -/

section
variable {i j : Input} {tail : List Token} {id : Identifier}

namespace Input

/-- An input that is left behind tokens had some. -/
theorem Consumes.eq_cons (h : i.Consumes j) :
    ∃ last token rest stop, i = ⟨last, token :: rest, stop⟩ := by
  obtain ⟨last, rest, stop⟩ := i
  cases rest with
  | nil => exact absurd h.2 (Nat.not_lt_zero _)
  | cons token rest => exact ⟨last, token, rest, stop, rfl⟩

theorem Leaves.ne_nil (h : i.Leaves j) (hj : j.rest ≠ []) : i.rest ≠ [] :=
  fun hi => hj (List.suffix_nil.1 (hi ▸ h))

/-- An input with tokens left begins with one of them. -/
theorem eq_cons (h : i.rest ≠ []) : ∃ last token rest stop, i = ⟨last, token :: rest, stop⟩ := by
  obtain ⟨last, rest, stop⟩ := i
  obtain ⟨token, rest, rfl⟩ := List.exists_cons_of_ne_nil h
  exact ⟨last, token, rest, stop, rfl⟩

theorem stop_skip (i : Input) : i.skip.stop = i.stop := by
  obtain ⟨last, rest, stop⟩ := i
  cases rest <;> rfl

theorem stop_of_takeName? (h : i.takeName? = some (id, j)) : j.stop = i.stop := by
  obtain ⟨text, -, -, rfl⟩ := takeName?_eq_some_iff.1 h
  exact i.stop_skip

/-- Behind the last token stands the semicolon, and before it nothing changes. -/
theorem lexeme?_followed (ht : Separates tail) :
    (i.followed tail).lexeme? = i.lexeme? ∨
      i.lexeme? = none ∧ (i.followed tail).lexeme? = some (.mark ';') := by
  obtain ⟨last, rest, stop⟩ := i
  cases rest with
  | nil => exact .inr ⟨rfl, ht⟩
  | cons token rest => exact .inl rfl

theorem atMark_followed (ht : Separates tail) {c : Char} (hc : c ≠ ';') :
    (i.followed tail).atMark c = i.atMark c := by
  obtain h | ⟨h, h'⟩ := lexeme?_followed (i := i) ht
  · rw [atMark, h, atMark]
  · rw [atMark, atMark, h, h']
    exact beq_false_of_ne (Ne.symm hc)

/-- In front of a token no test sees what follows. -/
theorem atMark_followed_of_consumes (h : i.Consumes j) (c : Char) :
    (i.followed tail).atMark c = i.atMark c := by
  obtain ⟨last, token, rest, stop, rfl⟩ := h.eq_cons
  rfl

theorem atMark_followed_of_atMark {c : Char} (h : i.atMark c = true) :
    (i.followed tail).atMark c = true :=
  (atMark_followed_of_consumes (consumes_of_atMark h) c).trans h

theorem bind_followed {α : Type} {read : Token → Option α} {a : α}
    (h : i.rest.head?.bind read = some a) :
    (i.followed tail).rest.head?.bind read = some a := by
  obtain ⟨last, token, rest, stop, rfl⟩ := (consumes_of_bind h).eq_cons
  exact h

theorem atOperator_followed (ht : Separates tail) (symbol : String) :
    (i.followed tail).atOperator symbol = i.atOperator symbol := by
  obtain h | ⟨h, h'⟩ := lexeme?_followed (i := i) ht
  · rw [atOperator, h, atOperator]
  · rw [atOperator, atOperator, h, h']
    rfl

theorem atNewline_followed (h : i.atNewline = true) : (i.followed tail).atNewline = true := by
  obtain ⟨last, rest, stop⟩ := i
  cases rest with
  | nil => cases h
  | cons token rest => exact h

theorem atKeyword_followed (ht : Separates tail) (word : String) :
    (i.followed tail).atKeyword word = i.atKeyword word := by
  obtain h | ⟨h, h'⟩ := lexeme?_followed (i := i) ht
  · rw [atKeyword, h, atKeyword]
  · rw [atKeyword, atKeyword, h, h']
    rfl

theorem takeName?_followed (h : i.takeName? = some (id, j)) :
    (i.followed tail).takeName? = some (id, j.followed tail) := by
  obtain ⟨last, token, rest, stop, rfl⟩ := (consumes_of_takeName? h).eq_cons
  obtain ⟨text, hl, rfl, rfl⟩ := takeName?_eq_some_iff.1 h
  exact takeName?_eq_some_iff.2 ⟨text, hl, rfl, rfl⟩

end Input

open Input

theorem operatorOf?_followed (ht : Separates tail) (operators : List String) :
    operatorOf? operators (i.followed tail) = operatorOf? operators i := by
  obtain h | ⟨h, h'⟩ := lexeme?_followed (i := i) ht
  · rw [operatorOf?, h, operatorOf?]
  · rw [operatorOf?, operatorOf?, h, h']

theorem binaryOf?_followed (ht : Separates tail) (operators : List String) :
    binaryOf? operators (i.followed tail) = binaryOf? operators i := by
  obtain h | ⟨h, h'⟩ := lexeme?_followed (i := i) ht
  · rw [binaryOf?, h, binaryOf?]
  · rw [binaryOf?, binaryOf?, h, h']

theorem unaryOf?_followed (ht : Separates tail) : unaryOf? (i.followed tail) = unaryOf? i := by
  obtain h | ⟨h, h'⟩ := lexeme?_followed (i := i) ht
  · rw [unaryOf?, h, unaryOf?]
  · rw [unaryOf?, unaryOf?, h, h']

theorem atLink_followed (ht : Separates tail) : atLink (i.followed tail) = atLink i := by
  have hmark : ∀ c, c ≠ ';' → (i.followed tail).atMark c = i.atMark c :=
    fun _ => atMark_followed ht
  rw [atLink, hmark '.' (by decide), atOperator_followed ht, hmark '[' (by decide),
    hmark '(' (by decide), atLink]

/-- A statement that ends before the end of the input ends there whatever follows. -/
theorem statementEnd_followed {inBody : Bool} (h : statementEnd inBody i = .ok j)
    (hj : j.rest ≠ []) : statementEnd inBody (i.followed tail) = .ok (j.followed tail) := by
  obtain ⟨last, token, rest, stop, rfl⟩ := eq_cons ((leaves_of_statementEnd h).ne_nil hj)
  obtain ⟨hm, rfl⟩ | ⟨hm, rfl, he⟩ := statementEnd_eq_ok h
  · exact if_pos hm
  · exact (if_neg (Bool.eq_false_iff.1 hm)).trans (if_pos he)

theorem stop_of_statementEnd {inBody : Bool} (h : statementEnd inBody i = .ok j) :
    j.stop = i.stop := by
  obtain ⟨-, rfl⟩ | ⟨-, rfl, -⟩ := statementEnd_eq_ok h
  · exact i.stop_skip
  · rfl

theorem atReturnEnd_followed (h : i.rest ≠ []) :
    (i.followed tail).atReturnEnd = i.atReturnEnd := by
  obtain ⟨last, token, rest, stop, rfl⟩ := Input.eq_cons h
  rfl

/-! ## The test for an arrow function -/

/-- A parenthesis in front of nested tokens has its partner among them. -/
theorem Nested.partner {tokens more : List Token} {o : Token} (h : Nested tokens)
    (hs : tokens = o :: more) (ho : o.lexeme = .mark '(') :
    ∃ inner c back, more = inner ++ c :: back ∧ Nested inner ∧ c.lexeme = .mark ')' := by
  induction h generalizing more with
  | nil => cases hs
  | plain hb =>
    obtain ⟨rfl, -⟩ := List.cons.inj hs
    rw [ho] at hb
    cases hb
  | @pair opening closing o' c inner hp ho' hc hn _ =>
    obtain ⟨rfl, rfl⟩ := List.cons.inj hs
    obtain rfl : opening = '(' := Lexeme.mark.inj (ho'.symm.trans ho)
    obtain rfl : closing = ')' := by simpa [bracketPairs] using hp
    exact ⟨inner, c, [], rfl, hn, hc⟩
  | @append front others _ _ ihf ihb =>
    cases front with
    | nil => exact ihb hs
    | cons first front =>
      obtain ⟨rfl, rfl⟩ := List.cons.inj hs
      obtain ⟨inner, c, back, rfl, hn, hc⟩ := ihf rfl
      exact ⟨inner, c, back ++ others, List.append_assoc inner (c :: back) others, hn, hc⟩

/-- So it has in front of nested tokens that are read. -/
theorem closedTo_of_nestedTo (h : NestedTo i j) (hc : i.Consumes j) (hm : i.atMark '(' = true) :
    ∃ l, ClosedTo ')' i.skip l := by
  obtain ⟨tokens, hr, hn⟩ := h
  cases tokens with
  | nil =>
    have hlt := hc.2
    rw [Input.left, Input.left, hr] at hlt
    exact absurd hlt (Nat.lt_irrefl _)
  | cons o more =>
    obtain ⟨last, rest, stop⟩ := i
    obtain rfl : rest = o :: (more ++ j.rest) := hr
    obtain ⟨inner, c, back, rfl, hn', hc'⟩ := hn.partner rfl (Option.some.inj (atMark_iff.1 hm))
    exact ⟨⟨last, back ++ j.rest, stop⟩, inner, c, List.append_assoc inner (c :: back) j.rest, hn',
      hc'⟩

theorem ClosedTo.followed {closing : Char} (h : ClosedTo closing i j) (tail : List Token) :
    ClosedTo closing (i.followed tail) (j.followed tail) := by
  obtain ⟨tokens, c, hr, hn, hc⟩ := h
  refine ⟨tokens, c, ?_, hn, hc⟩
  rw [Input.followed, hr, List.append_assoc, List.cons_append, Input.followed]

/-- In front of an expression that is read the test answers the same, whatever follows: it does not
    look behind the parenthesis that closes the first one of the expression. -/
theorem atArrow_followed {e : Expr} (ht : Separates tail) (h : Reads .conditional i e j) :
    atArrow (i.followed tail) = atArrow i := by
  have hsame : (i.followed tail).lexeme? = i.lexeme? := by
    obtain ⟨last, token, rest, stop, rfl⟩ := (h.consumes rfl).eq_cons
    rfl
  by_cases hm : i.atMark '(' = true
  · obtain ⟨l, hclosed⟩ := closedTo_of_nestedTo (nests_of_reads h) (h.consumes rfl) hm
    have hskip : (i.followed tail).skip = i.skip.followed tail := by
      obtain ⟨last, token, rest, stop, rfl⟩ := (h.consumes rfl).eq_cons
      rfl
    rw [atArrow_of_atMark hm, atArrow_of_atMark (atMark_followed_of_atMark hm), hskip,
      closesBeforeArrow_of_closedTo hclosed, closesBeforeArrow_of_closedTo (hclosed.followed tail),
      atOperator_followed ht]
  · cases hid : i.takeName? with
    | some found =>
      rw [atArrow_of_takeName? hid, atArrow_of_takeName? (takeName?_followed hid),
        atOperator_followed ht]
    | none =>
      have hno : ∀ l : Input, l.lexeme? = i.lexeme? → atArrow l = false := by
        intro l hl
        refine Bool.eq_false_iff.2 fun ha => ?_
        obtain ⟨text, hb⟩ | hb := begins_of_atArrow ha
        · exact takeName?_eq_none_iff.1 hid text (hl.symm.trans hb)
        · exact hm (atMark_iff.2 (hl.symm.trans hb))
      rw [hno _ hsame, hno i rfl]

end

/-! ## Phrases -/

def Phrase.isStatement {k : Kind} : Phrase k → Bool
  | .statement _ => true
  | _ => false

open Input

/-- A phrase is read the same when a semicolon follows the input; a statement, unless it goes on
    to the end of the input. -/
theorem Reads.followed {k : Kind} {c : Phrase k} {i j : Input} {a : k.type} {tail : List Token}
    (h : Reads c i a j) (ht : Separates tail) (hc : c.isStatement = true → j.rest ≠ []) :
    Reads c (i.followed tail) a (j.followed tail) := by
  induction h with
  -- Series
  | itemsClose hm =>
    obtain ⟨_, _, _, _, rfl⟩ := (consumes_of_atMark hm).eq_cons
    exact .itemsClose (atMark_followed_of_atMark hm)
  | itemsMore hm hi hs _ ih ih' =>
    have hbegins := hi.leaves.consumes (consumes_of_atMark hs)
    obtain ⟨_, _, _, _, rfl⟩ := (consumes_of_atMark hs).eq_cons
    exact .itemsMore ((atMark_followed_of_consumes hbegins _).trans hm)
      (ih fun _ => List.cons_ne_nil _ _) (atMark_followed_of_atMark hs) (ih' nofun)
  | itemsLast hm hi hn hs ih =>
    have hbegins := hi.leaves.consumes (consumes_of_atMark hs)
    obtain ⟨_, _, _, _, rfl⟩ := (consumes_of_atMark hs).eq_cons
    exact .itemsLast ((atMark_followed_of_consumes hbegins _).trans hm)
      (ih fun _ => List.cons_ne_nil _ _) ((atMark_followed ht (by decide)).trans hn)
      (atMark_followed_of_atMark hs)
  | othersNone hm => exact .othersNone ((atMark_followed ht (by decide)).trans hm)
  | othersMore hm _ _ ih ih' =>
    obtain ⟨_, _, _, _, rfl⟩ := (consumes_of_atMark hm).eq_cons
    exact .othersMore (atMark_followed_of_atMark hm) (ih nofun) (ih' nofun)
  | single _ _ ih ih' => exact .single (ih nofun) (ih' nofun)
  | several _ _ ih ih' => exact .several (ih nofun) (ih' nofun)
  -- Functions
  | plainParam hp ho =>
    exact .plainParam (takeName?_followed hp) ((atOperator_followed ht _).trans ho)
  | defaultParam hp ho _ ih =>
    obtain ⟨_, _, _, _, rfl⟩ := (consumes_of_atOperator ho).eq_cons
    exact .defaultParam (takeName?_followed hp) ((atOperator_followed ht _).trans ho) (ih nofun)
  | bodyEnd hm =>
    obtain ⟨_, _, _, _, rfl⟩ := (consumes_of_atMark hm).eq_cons
    exact .bodyEnd (atMark_followed_of_atMark hm)
  | bodyEmpty hm _ ih =>
    obtain ⟨_, _, _, _, rfl⟩ := (consumes_of_atMark hm).eq_cons
    exact .bodyEmpty (atMark_followed_of_atMark hm) (ih nofun)
  | bodyNext hb hs h h' ih ih' =>
    obtain ⟨_, _, _, _, rfl⟩ := (h.consumes rfl).eq_cons
    obtain ⟨_, _, _, _, rfl⟩ := (h'.consumes rfl).eq_cons
    exact .bodyNext ((atMark_followed ht (by decide)).trans hb) hs
      (ih fun _ => List.cons_ne_nil _ _) (ih' nofun)
  | block hm _ ih =>
    obtain ⟨_, _, _, _, rfl⟩ := (consumes_of_atMark hm).eq_cons
    exact .block (atMark_followed_of_atMark hm) (ih nofun)
  | namedFunction hk hid hm _ _ ih ih' =>
    obtain ⟨_, _, _, _, rfl⟩ := (consumes_of_atKeyword hk).eq_cons
    obtain ⟨_, _, _, _, rfl⟩ := (consumes_of_atMark hm).eq_cons
    exact .namedFunction ((atKeyword_followed ht _).trans hk) (takeName?_followed hid)
      (atMark_followed_of_atMark hm) (ih nofun) (ih' nofun)
  | namelessFunction hk hm _ _ ih ih' =>
    obtain ⟨_, _, _, _, rfl⟩ := (consumes_of_atKeyword hk).eq_cons
    obtain ⟨_, _, _, _, hskip⟩ := (consumes_of_atMark hm).eq_cons
    obtain rfl := congrArg Input.rest hskip
    exact .namelessFunction ((atKeyword_followed ht _).trans hk) (atMark_followed_of_atMark hm)
      (ih nofun) (ih' nofun)
  | paramList hm _ ih =>
    obtain ⟨_, _, _, _, rfl⟩ := (consumes_of_atMark hm).eq_cons
    exact .paramList (atMark_followed_of_atMark hm) (ih nofun)
  | soleParam hid => exact .soleParam (takeName?_followed hid)
  -- Operands
  | @memberName i text hl =>
    obtain ⟨_, _, _, _, rfl⟩ := (hl.elim consumes_skip consumes_skip : i.Consumes i.skip).eq_cons
    exact Reads.memberName (i := Input.followed ⟨_, _ :: _, _⟩ tail) hl
  | computedProperty hm _ hs hn _ ih ih' =>
    obtain ⟨_, _, _, _, rfl⟩ := (consumes_of_atMark hm).eq_cons
    obtain ⟨_, _, _, _, rfl⟩ := (consumes_of_atMark hs).eq_cons
    obtain ⟨_, _, _, _, hskip⟩ := (consumes_of_atMark hn).eq_cons
    obtain rfl := congrArg Input.rest hskip
    exact .computedProperty (atMark_followed_of_atMark hm) (ih nofun) (atMark_followed_of_atMark hs)
      (atMark_followed_of_atMark hn) (ih' nofun)
  | keyedProperty hk hn _ ih =>
    obtain ⟨_, _, _, _, rfl⟩ := (consumes_of_bind hk).eq_cons
    obtain ⟨_, _, _, _, hskip⟩ := (consumes_of_atMark hn).eq_cons
    obtain rfl := congrArg Input.rest hskip
    exact .keyedProperty (bind_followed hk) (atMark_followed_of_atMark hn) (ih nofun)
  | shorthand hk hn =>
    obtain ⟨_, _, _, _, rfl⟩ := (consumes_of_bind hk).eq_cons
    refine .shorthand (bind_followed hk) ?_
    rw [Bool.or_eq_true] at hn ⊢
    exact hn.imp atMark_followed_of_atMark atMark_followed_of_atMark
  | atom ha =>
    obtain ⟨_, _, _, _, rfl⟩ := (consumes_of_bind ha).eq_cons
    exact .atom (bind_followed ha)
  | functionValue hk _ ih => exact .functionValue ((atKeyword_followed ht _).trans hk) (ih nofun)
  | parens hm _ hs ih =>
    obtain ⟨_, _, _, _, rfl⟩ := (consumes_of_atMark hm).eq_cons
    obtain ⟨_, _, _, _, rfl⟩ := (consumes_of_atMark hs).eq_cons
    exact .parens (atMark_followed_of_atMark hm) (ih nofun) (atMark_followed_of_atMark hs)
  | array hm _ ih =>
    obtain ⟨_, _, _, _, rfl⟩ := (consumes_of_atMark hm).eq_cons
    exact .array (atMark_followed_of_atMark hm) (ih nofun)
  | object hm _ ih =>
    obtain ⟨_, _, _, _, rfl⟩ := (consumes_of_atMark hm).eq_cons
    exact .object (atMark_followed_of_atMark hm) (ih nofun)
  | named hm _ ih =>
    obtain ⟨_, _, _, _, rfl⟩ := (consumes_of_atMark hm).eq_cons
    exact .named (atMark_followed_of_atMark hm) (ih nofun)
  | namedOptional ho _ ih =>
    obtain ⟨_, _, _, _, rfl⟩ := (consumes_of_atOperator ho).eq_cons
    exact .namedOptional ((atOperator_followed ht _).trans ho) (ih nofun)
  | computed hm _ hs ih =>
    obtain ⟨_, _, _, _, rfl⟩ := (consumes_of_atMark hm).eq_cons
    obtain ⟨_, _, _, _, rfl⟩ := (consumes_of_atMark hs).eq_cons
    exact .computed (atMark_followed_of_atMark hm) (ih nofun) (atMark_followed_of_atMark hs)
  | computedOptional ho hm _ hs ih =>
    obtain ⟨_, _, _, _, rfl⟩ := (consumes_of_atOperator ho).eq_cons
    obtain ⟨_, _, _, _, hskip⟩ := (consumes_of_atMark hm).eq_cons
    obtain rfl := congrArg Input.rest hskip
    obtain ⟨_, _, _, _, rfl⟩ := (consumes_of_atMark hs).eq_cons
    exact .computedOptional ((atOperator_followed ht _).trans ho) (atMark_followed_of_atMark hm)
      (ih nofun) (atMark_followed_of_atMark hs)
  | call hm _ ih =>
    obtain ⟨_, _, _, _, rfl⟩ := (consumes_of_atMark hm).eq_cons
    exact .call (atMark_followed_of_atMark hm) (ih nofun)
  | callOptional ho hm _ ih =>
    obtain ⟨_, _, _, _, rfl⟩ := (consumes_of_atOperator ho).eq_cons
    obtain ⟨_, _, _, _, hskip⟩ := (consumes_of_atMark hm).eq_cons
    obtain rfl := congrArg Input.rest hskip
    exact .callOptional ((atOperator_followed ht _).trans ho) (atMark_followed_of_atMark hm)
      (ih nofun)
  | linksNone hl => exact .linksNone ((atLink_followed ht).trans hl)
  | linksMore _ _ ih ih' => exact .linksMore (ih nofun) (ih' nofun)
  | chain _ _ ih ih' => exact .chain (ih nofun) (ih' nofun)
  -- Operations
  | noTrailing _ ho ih =>
    exact .noTrailing (ih nofun) (ho.imp (operatorOf?_followed ht _).trans atNewline_followed)
  | trailingUpdate _ ho hn he ih =>
    obtain ⟨_, _, _, _, rfl⟩ := (consumes_of_operatorOf? ho).eq_cons
    exact .trailingUpdate (ih nofun) ((operatorOf?_followed ht _).trans ho) hn he
  | leadingUpdate ho _ he ih =>
    obtain ⟨_, _, _, _, rfl⟩ := (consumes_of_operatorOf? ho).eq_cons
    exact .leadingUpdate ((operatorOf?_followed ht _).trans ho) (ih nofun) he
  | unary hu ho _ ih =>
    obtain ⟨_, _, _, _, rfl⟩ := (consumes_of_unaryOf? ho).eq_cons
    exact .unary ((operatorOf?_followed ht _).trans hu) ((unaryOf?_followed ht).trans ho) (ih nofun)
  | noPrefix hu ho _ ih =>
    exact .noPrefix ((operatorOf?_followed ht _).trans hu) ((unaryOf?_followed ht).trans ho)
      (ih nofun)
  | noPower _ ho ih => exact .noPower (ih nofun) ((atOperator_followed ht _).trans ho)
  | power _ ho _ ih ih' =>
    obtain ⟨_, _, _, _, rfl⟩ := (consumes_of_atOperator ho).eq_cons
    exact .power (ih nofun) ((atOperator_followed ht _).trans ho) (ih' nofun)
  | ladderTop _ ih => exact .ladderTop (ih nofun)
  | ladderStep _ _ ih ih' => exact .ladderStep (ih nofun) (ih' nofun)
  | climbStop ho => exact .climbStop ((binaryOf?_followed ht _).trans ho)
  | climbMore ho _ _ ih ih' =>
    obtain ⟨_, _, _, _, rfl⟩ := (consumes_of_binaryOf? ho).eq_cons
    exact .climbMore ((binaryOf?_followed ht _).trans ho) (ih nofun) (ih' nofun)
  | noConditional _ ho ih => exact .noConditional (ih nofun) ((atOperator_followed ht _).trans ho)
  | conditional _ ho _ hm _ ih ih' ih'' =>
    obtain ⟨_, _, _, _, rfl⟩ := (consumes_of_atOperator ho).eq_cons
    obtain ⟨_, _, _, _, rfl⟩ := (consumes_of_atMark hm).eq_cons
    exact .conditional (ih nofun) ((atOperator_followed ht _).trans ho) (ih' nofun)
      (atMark_followed_of_atMark hm) (ih'' nofun)
  | blockArrow ha hp ho _ ih ih' =>
    obtain ⟨_, _, _, _, rfl⟩ := (hp.consumes rfl).eq_cons
    obtain ⟨_, _, _, _, rfl⟩ := (consumes_of_atOperator ho).eq_cons
    have hfollows := (atOperator_followed ht "=>").trans ho
    exact .blockArrow ((atArrow_eq_of_arrowParams (ih nofun)).trans hfollows) (ih nofun) hfollows
      (ih' nofun)
  | arrow ha hp ho hm _ ih ih' =>
    obtain ⟨_, _, _, _, rfl⟩ := (hp.consumes rfl).eq_cons
    obtain ⟨_, _, _, _, rfl⟩ := (consumes_of_atOperator ho).eq_cons
    have hfollows := (atOperator_followed ht "=>").trans ho
    exact .arrow ((atArrow_eq_of_arrowParams (ih nofun)).trans hfollows) (ih nofun) hfollows
      ((atMark_followed ht (by decide)).trans hm) (ih' nofun)
  | noAssignment ha he ho ih =>
    exact .noAssignment ((atArrow_followed ht he).trans ha) (ih nofun)
      ((operatorOf?_followed ht _).trans ho)
  | assignment ha he ho hv _ ih ih' =>
    obtain ⟨_, _, _, _, rfl⟩ := (consumes_of_operatorOf? ho).eq_cons
    exact .assignment ((atArrow_followed ht he).trans ha) (ih nofun)
      ((operatorOf?_followed ht _).trans ho) hv (ih' nofun)
  -- Statements
  | declaration hk _ ih => exact .declaration ((atKeyword_followed ht _).trans hk) (ih nofun)
  | bareReturn hk he hs =>
    obtain ⟨_, _, _, _, rfl⟩ := (consumes_of_atKeyword hk).eq_cons
    have hmore := (leaves_of_statementEnd hs).ne_nil (hc rfl)
    exact .bareReturn ((atKeyword_followed ht _).trans hk) ((atReturnEnd_followed hmore).trans he)
      (statementEnd_followed hs (hc rfl))
  | «return» hk he hv hs ih =>
    obtain ⟨_, _, _, _, rfl⟩ := (consumes_of_atKeyword hk).eq_cons
    have hmore := (hv.leaves.trans (leaves_of_statementEnd hs)).ne_nil (hc rfl)
    exact .return ((atKeyword_followed ht _).trans hk) ((atReturnEnd_followed hmore).trans he)
      (ih nofun) (statementEnd_followed hs (hc rfl))
  | expression hf hk he hs ih =>
    obtain ⟨_, _, _, _, rfl⟩ := (he.consumes rfl).eq_cons
    exact .expression ((atKeyword_followed ht _).trans hf) ((atKeyword_followed ht _).trans hk)
      (ih nofun) (statementEnd_followed hs (hc rfl))

/-- No phrase moves the end of the text. -/
theorem Reads.stop_eq {k : Kind} {c : Phrase k} {i j : Input} {a : k.type} (h : Reads c i a j) :
    j.stop = i.stop := by
  induction h with
  | _ => grind -ring -linarith [stop_skip, → stop_of_takeName?, → stop_of_statementEnd]

/-! ## Statements -/

section
variable {i j : Input} {s : Statement} {ss others : List Statement} {tail more : List Token}

/-- A statement that goes on to the end of the text ends in front of the semicolon that follows,
    or takes it. -/
theorem Reads.statement_followed (h : Reads (.statement false) i s j) (hj : j.rest = [])
    (ht : Separates tail) : ∃ s' l, Reads (.statement false) (i.followed tail) s' l ∧
      s'.relabel .erasing = s.relabel .erasing ∧
      (l = j.followed tail ∨ l = (j.followed tail).skip) := by
  cases h with
  | declaration hk hf =>
    exact ⟨_, _, .declaration ((atKeyword_followed ht _).trans hk) (hf.followed ht nofun), rfl,
      .inl rfl⟩
  | expression hf hk he hs =>
    obtain ⟨_, _, _, _, rfl⟩ := (he.consumes rfl).eq_cons
    have hf' := (atKeyword_followed ht _).trans hf
    have hk' := (atKeyword_followed ht _).trans hk
    obtain ⟨hm, rfl⟩ | ⟨-, rfl, -⟩ := statementEnd_eq_ok hs
    · obtain ⟨_, _, _, _, rfl⟩ := (consumes_of_atMark hm).eq_cons
      exact ⟨_, _, .expression hf' hk' (he.followed ht nofun)
        (if_pos (atMark_followed_of_atMark hm)), rfl, .inl rfl⟩
    · have hsemicolon : (j.followed tail).atMark ';' = true := by
        obtain ⟨last, rest, stop⟩ := j
        obtain rfl : rest = [] := hj
        exact atMark_iff.2 ht
      exact ⟨_, _, .expression hf' hk' (he.followed ht nofun) (if_pos hsemicolon), rfl, .inr rfl⟩

theorem ReadsAll.eq_nil (h : ReadsAll i ss) (hi : i.rest = []) : ss = [] := by
  cases h with
  | done => rfl
  | empty hm hs =>
    obtain ⟨_, _, _, _, rfl⟩ := (consumes_of_atMark hm).eq_cons
    cases hi
  | next _ hs _ =>
    obtain ⟨_, _, _, _, rfl⟩ := (hs.consumes rfl).eq_cons
    cases hi

/-- The statements of an input, then those of the tokens behind a semicolon that follows it. -/
theorem ReadsAll.followed (h : ReadsAll i ss) (semicolon : Token)
    (hs : semicolon.lexeme = .mark ';') (h' : ReadsAll ⟨semicolon.span, more, i.stop⟩ others) :
    ∃ front, ReadsAll (i.followed (semicolon :: more)) (front ++ others) ∧
      relabelStatements .erasing front = relabelStatements .erasing ss := by
  have ht : Separates (semicolon :: more) := congrArg some hs
  have hmark : ∀ last stop, (Input.mk last (semicolon :: more) stop).atMark ';' = true :=
    fun _ _ => atMark_iff.2 ht
  induction h with
  | @done i hr =>
    obtain ⟨last, rest, stop⟩ := i
    obtain rfl : rest = [] := hr
    exact ⟨[], .empty (hmark last stop) h', rfl⟩
  | empty hm _ ih =>
    obtain ⟨_, _, _, _, rfl⟩ := (consumes_of_atMark hm).eq_cons
    obtain ⟨front, hfront, he⟩ := ih h'
    exact ⟨front, .empty hm hfront, he⟩
  | @next i s j ss hm hr hmore ih =>
    have hm' : (i.followed (semicolon :: more)).atMark ';' = false :=
      (atMark_followed_of_consumes (hr.consumes rfl) ';').trans hm
    have hstop := hr.stop_eq
    by_cases hj : j.rest = []
    · obtain rfl := hmore.eq_nil hj
      obtain ⟨s', l, hs', he, hl⟩ := hr.statement_followed hj ht
      have hbehind : ReadsAll l others := by
        obtain ⟨last, rest, stop⟩ := j
        obtain rfl : rest = [] := hj
        obtain rfl : stop = i.stop := hstop
        obtain rfl | rfl := hl
        · exact .empty (hmark _ _) h'
        · exact h'
      exact ⟨[s'], .next hm' hs' hbehind, congrArg (fun s => [s]) he⟩
    · obtain ⟨front, hfront, he⟩ := ih (hstop ▸ h')
      exact ⟨s :: front, .next hm' (hr.followed ht fun _ => hj) hfront,
        congrArg (s.relabel .erasing :: ·) he⟩

end

end TemplateExpr
