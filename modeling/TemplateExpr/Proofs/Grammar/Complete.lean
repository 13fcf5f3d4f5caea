/-
  Productions read all that the grammar says: a reading of a phrase is the answer of the
  production for it, once the bound on the recursion is no less than the number of tokens. The
  bound is never what ends a parse.

  * `answers_of_reads`: the productions of the phrases.
  * `program_of_readsAll`: the production of whole programs.
-/
import TemplateExpr.Proofs.Grammar.Reads

namespace TemplateExpr
open Production

/-- The production of a phrase, with nested parts at most `n` deep. -/
def Phrase.produce (n : Nat) {k : Kind} : Phrase k → Production k.type
  | .assignment => Production.assignment (rules n)
  | .conditional => Production.conditional (rules n)
  | .ladder levels => Production.ladder (Production.power (rules n)) levels
  | .climb level tighter left => fun i =>
    Production.climb level (Production.ladder (Production.power (rules n)) tighter)
      (i.left + 1) left i
  | .power => Production.power (rules n)
  | .prefixed => Production.prefixed (rules n)
  | .postfixed => Production.postfixed (rules n)
  | .chain => Production.chain (rules n)
  | .links operand => fun i => Production.links (rules n) (i.left + 1) operand i
  | .link operand => Production.link (rules n) operand
  | .primary => Production.primary (rules n)
  | .memberName => Production.memberName
  | .sequence => Production.sequence (Production.assignment (rules n))
  | .others => fun i => Production.others (Production.assignment (rules n)) (i.left + 1) i
  | .items item close => fun i => Production.items (item.produce n) close (i.left + 1) i
  | .property => Production.property (rules n)
  | .param => Production.param (rules n)
  | .arrowParams => Production.arrowParams (rules n)
  | .block => Production.block (rules n)
  | .blockStatements => fun i =>
    Production.blockStatements (Production.statement (rules n) true) (i.left + 1) i
  | .function declaration => Production.function (rules n) declaration
  | .statement inBody => Production.statement (rules n) inBody

/-- The production of the phrase answers `a`. A loop does so with every bound above the number
    of tokens. -/
def Phrase.Answers (n : Nat) {k : Kind} (i : Input) (a : k.type) (j : Input) (c : Phrase k) :
    Prop :=
  match c with
  | .climb level tighter left => ∀ bound, i.left < bound →
    Production.climb level (Production.ladder (Production.power (rules n)) tighter) bound left i =
      .ok (a, j)
  | .links operand => ∀ bound, i.left < bound →
    Production.links (rules n) bound operand i = .ok (a, j)
  | .others => ∀ bound, i.left < bound →
    Production.others (Production.assignment (rules n)) bound i = .ok (a, j)
  | .items item close => ∀ bound, i.left < bound →
    Production.items (item.produce n) close bound i = .ok (a, j)
  | .blockStatements => ∀ bound, i.left < bound →
    Production.blockStatements (Production.statement (rules n) true) bound i = .ok (a, j)
  | c => c.produce n i = .ok (a, j)

theorem Phrase.Answers.produce {n : Nat} {k : Kind} {i j : Input} {a : k.type} {c : Phrase k}
    (h : c.Answers n i a j) : c.produce n i = .ok (a, j) := by
  cases c with
  | climb | links | others | items | blockStatements => exact h _ (Nat.lt_succ_self _)
  | _ => exact h

/-! ## Tests that are settled by the next token -/

namespace Input

variable {i j : Input} {c : Char} {symbol word : String}

theorem atMark_eq_of_atMark (h : i.atMark c = true) (d : Char) : i.atMark d = (c == d) := by
  rw [atMark, atMark_iff.1 h]
  rfl

theorem atMark_eq_of_atOperator (h : i.atOperator symbol = true) (d : Char) :
    i.atMark d = false := by
  rw [atMark, atOperator_iff.1 h]
  rfl

theorem atOperator_eq_of_atMark (h : i.atMark c = true) (symbol : String) :
    i.atOperator symbol = false := by
  rw [atOperator, atMark_iff.1 h]
  rfl

theorem atKeyword_eq_of_atMark (h : i.atMark c = true) (word : String) :
    i.atKeyword word = false := by
  rw [atKeyword, atMark_iff.1 h]
  rfl

theorem atKeyword_eq_of_atKeyword (h : i.atKeyword word = true) (other : String) :
    i.atKeyword other = (word == other) := by
  rw [atKeyword, atKeyword_iff.1 h]
  rfl

theorem isEmpty_eq_of_lexeme? {lexeme : Lexeme} (h : i.lexeme? = some lexeme) :
    i.rest.isEmpty = false := by
  obtain ⟨token, rest, hr, -⟩ := lexeme?_eq_some_iff.1 h
  rw [hr, List.isEmpty_cons]

theorem isEmpty_eq_of_consumes (h : i.Consumes j) : i.rest.isEmpty = false := by
  obtain ⟨lexeme, hl⟩ := h.lexeme?
  exact isEmpty_eq_of_lexeme? hl

theorem takeName?_eq_of_atMark (h : i.atMark c = true) : i.takeName? = none :=
  takeName?_eq_none_iff.2 fun text ht => by rw [atMark_iff.1 h] at ht; cases ht

theorem atom?_eq_of_atMark (h : i.atMark c = true) : i.rest.head?.bind atom? = none := by
  obtain ⟨⟨lexeme, raw, newline, span⟩, rest, hr, rfl⟩ := lexeme?_eq_some_iff.1 (atMark_iff.1 h)
  rw [hr]
  rfl

theorem atom?_eq_of_function (h : i.atKeyword "function" = true) :
    i.rest.head?.bind atom? = none := by
  obtain ⟨⟨lexeme, raw, newline, span⟩, rest, hr, rfl⟩ :=
    lexeme?_eq_some_iff.1 (atKeyword_iff.1 h)
  rw [hr]
  rfl

theorem atMark_eq_of_plainKey? {found : Expr × Bool}
    (h : i.rest.head?.bind plainKey? = some found) (d : Char) : i.atMark d = false := by
  obtain ⟨⟨lexeme, raw, newline, span⟩, rest, hr, ht⟩ := head?_bind_eq_some_iff.1 h
  rw [atMark, lexeme?, hr]
  cases lexeme with
  | mark => cases ht
  | _ => rfl

theorem atMark_eq_of_memberName {e : Expr} (h : Reads .memberName i e j) (d : Char) :
    i.atMark d = false := by
  cases h with
  | memberName h => obtain h | h := h <;> rw [atMark, h] <;> rfl

theorem memberName_eq_of_lexeme? {text : String}
    (h : i.lexeme? = some (.name text) ∨ i.lexeme? = some (.keyword text)) :
    memberName i = .ok (.identifier ⟨text, none, i.here⟩, i.skip) := by
  obtain ⟨last, rest, stop⟩ := i
  cases rest with
  | nil => simp [lexeme?] at h
  | cons token rest =>
    obtain ⟨lexeme, raw, newline, span⟩ := token
    simp only [lexeme?, List.head?_cons, Option.map_some, Option.some.injEq] at h
    obtain rfl | rfl := h <;> rfl

/-- Behind a token the recursion has one level less to go. -/
theorem Consumes.depth (h : i.Consumes j) {n : Nat} (hn : i.left ≤ n) :
    ∃ m, n = m + 1 ∧ j.left ≤ m := by
  obtain ⟨-, hl⟩ := h
  exact ⟨n - 1, by omega, by omega⟩

end Input

/-! ## The answers -/

theorem ok_bind {ε α β : Type} (a : α) (f : α → Except ε β) : (Except.ok a >>= f) = f a := rfl

theorem expectMark_eq {i : Input} {c : Char} (h : i.atMark c = true) :
    i.expectMark c = .ok i.skip := by
  rw [Input.expectMark, h]
  rfl

theorem expectOperator_eq {i : Input} {symbol : String} (h : i.atOperator symbol = true) :
    i.expectOperator symbol = .ok i.skip := by
  rw [Input.expectOperator, h]
  rfl

theorem expectTarget_eq {target : Expr} (h : target.isTarget = true) :
    expectTarget target = .ok () := by
  rw [expectTarget, h]
  rfl

/-! ### Series -/

section
variable {α : Type} {item : Production α} {close : Char} {bound : Nat} {i j l : Input} {a : α}
  {as : List α}

theorem items_close (hc : i.atMark close = true) :
    items item close (bound + 1) i = .ok ([], i.skip) := by
  rw [items, hc]
  rfl

theorem items_more (hc : i.atMark close = false) (ha : item i = .ok (a, j))
    (hm : j.atMark ',' = true) (hr : items item close bound j.skip = .ok (as, l)) :
    items item close (bound + 1) i = .ok (a :: as, l) := by
  rw [items, hc, ha, if_neg Bool.false_ne_true, ok_bind]
  simp only [hm, if_true]
  rw [hr, ok_bind]

theorem items_last (hc : i.atMark close = false) (ha : item i = .ok (a, j))
    (hm : j.atMark ',' = false) (hl : j.atMark close = true) :
    items item close (bound + 1) i = .ok ([a], j.skip) := by
  rw [items, hc, ha, if_neg Bool.false_ne_true, ok_bind]
  simp only [hm, Bool.false_eq_true, if_false]
  rw [expectMark_eq hl, ok_bind]

theorem enclosed_eq {opening : Char} (ho : i.atMark opening = true)
    (h : items item close (i.skip.left + 1) i.skip = .ok (as, j)) :
    enclosed item opening close i = .ok (as, j) := by
  rw [enclosed, expectMark_eq ho, ok_bind, h]

theorem others_none (hm : i.atMark ',' = false) :
    others item (bound + 1) i = .ok ([], i) := by
  rw [others, hm]
  rfl

theorem others_more (hm : i.atMark ',' = true) (ha : item i.skip = .ok (a, j))
    (hr : others item bound j = .ok (as, l)) :
    others item (bound + 1) i = .ok (a :: as, l) := by
  rw [others, hm, if_pos rfl, ha, ok_bind]
  dsimp only
  rw [hr, ok_bind]

end

section
variable {p : Production Expr} {i j l : Input} {e e' : Expr} {es : List Expr}

theorem sequence_single (he : p i = .ok (e, j))
    (hr : others p (j.left + 1) j = .ok ([], l)) : sequence p i = .ok (e, l) := by
  rw [Production.sequence, he, ok_bind]
  dsimp only
  rw [hr, ok_bind]

theorem sequence_several (he : p i = .ok (e, j))
    (hr : others p (j.left + 1) j = .ok (e' :: es, l)) :
    sequence p i = .ok (.sequence (e :: e' :: es) (l.spanFrom e.span), l) := by
  rw [Production.sequence, he, ok_bind]
  dsimp only
  rw [hr, ok_bind]

end

/-! ### Functions -/

section
variable {rules : Rules} {i j l m : Input} {id : Identifier} {e : Expr} {ps : List Param}
  {b : Body} {ss : List Statement}

theorem param_plain (ht : i.takeName? = some (id, j)) (ho : j.atOperator "=" = false) :
    param rules i = .ok (.plain id, j) := by
  rw [param, ht]
  dsimp only
  rw [ho]
  rfl

theorem param_withDefault (ht : i.takeName? = some (id, j)) (ho : j.atOperator "=" = true)
    (he : rules.assignment j.skip = .ok (e, l)) :
    param rules i = .ok (.withDefault id e (id.span.to e.span), l) := by
  rw [param, ht]
  dsimp only
  rw [ho, if_pos rfl, he, ok_bind]

theorem blockStatements_end {statement : Production Statement} {bound : Nat}
    (hb : i.atMark '}' = true) :
    blockStatements statement (bound + 1) i = .ok ([], i.skip) := by
  rw [blockStatements, hb]
  rfl

theorem blockStatements_empty {statement : Production Statement} {bound : Nat}
    (hs : i.atMark ';' = true) (hr : blockStatements statement bound i.skip = .ok (ss, j)) :
    blockStatements statement (bound + 1) i = .ok (ss, j) := by
  have hb : i.atMark '}' = false := Input.atMark_eq_of_atMark hs '}'
  have he : i.rest.isEmpty = false := Input.isEmpty_eq_of_lexeme? (Input.atMark_iff.1 hs)
  rw [blockStatements, hb, he, hs]
  exact hr

theorem blockStatements_next {statement : Production Statement} {bound : Nat} {s : Statement}
    (hb : i.atMark '}' = false) (hs : i.atMark ';' = false) (he : i.rest.isEmpty = false)
    (hf : statement i = .ok (s, j)) (hr : blockStatements statement bound j = .ok (ss, l)) :
    blockStatements statement (bound + 1) i = .ok (s :: ss, l) := by
  rw [blockStatements, hb, he, hs]
  simp only [Bool.false_eq_true, if_false]
  rw [hf, ok_bind]
  dsimp only
  rw [hr, ok_bind]

theorem block_eq (hb : i.atMark '{' = true)
    (hs : blockStatements rules.statement (i.skip.left + 1) i.skip = .ok (ss, j)) :
    block rules i = .ok (.block ss (j.spanFrom i.here), j) := by
  rw [block, expectMark_eq hb, ok_bind]
  dsimp only
  rw [hs, ok_bind]

theorem function_named {declaration : Bool} (ht : i.skip.takeName? = some (id, j))
    (hp : params rules j = .ok (ps, l)) (hb : block rules l = .ok (b, m)) :
    function rules declaration i = .ok (⟨some id, ps, b, m.spanFrom i.here⟩, m) := by
  rw [function, ht]
  simp only [Option.isNone_some, Bool.and_false, Bool.false_eq_true, if_false]
  rw [hp, ok_bind]
  dsimp only
  rw [hb, ok_bind]

theorem function_nameless (ht : i.skip.takeName? = none)
    (hp : params rules i.skip = .ok (ps, l)) (hb : block rules l = .ok (b, m)) :
    function rules false i = .ok (⟨none, ps, b, m.spanFrom i.here⟩, m) := by
  rw [function, ht]
  simp only [Bool.false_and, Bool.false_eq_true, if_false]
  rw [hp, ok_bind]
  dsimp only
  rw [hb, ok_bind]

theorem arrowParams_list (ho : i.atMark '(' = true) (hp : params rules i = .ok (ps, j)) :
    arrowParams rules i = .ok (ps, j) := by
  rw [arrowParams, ho]
  exact hp

theorem arrowParams_sole (ht : i.takeName? = some (id, j)) :
    arrowParams rules i = .ok ([.plain id], j) := by
  obtain ⟨text, hl, rfl, rfl⟩ := Input.takeName?_eq_some_iff.1 ht
  have ho : i.atMark '(' = false := by rw [Input.atMark, hl]; rfl
  rw [arrowParams, ho, ht]
  rfl

theorem arrowBody_block (hb : i.atMark '{' = true) (h : block rules i = .ok (b, j)) :
    arrowBody rules i = .ok (b, j) := by
  rw [arrowBody, hb]
  exact h

theorem arrowBody_expression (hb : i.atMark '{' = false)
    (he : rules.assignment i = .ok (e, j)) :
    arrowBody rules i = .ok (.expression e, j) := by
  rw [arrowBody, hb, if_neg Bool.false_ne_true, he, ok_bind]

theorem arrow_eq (hp : arrowParams rules i = .ok (ps, j)) (ho : j.atOperator "=>" = true)
    (hb : arrowBody rules j.skip = .ok (b, l)) :
    arrow rules i = .ok (.arrow ⟨none, ps, b, l.spanFrom i.here⟩, l) := by
  rw [arrow, hp, ok_bind]
  dsimp only
  rw [expectOperator_eq ho, ok_bind, hb, ok_bind]

/-! ### Operands -/

theorem property_computed {key value : Expr} (hc : i.atMark '[' = true)
    (hk : rules.assignment i.skip = .ok (key, j)) (hb : j.atMark ']' = true)
    (hm : j.skip.atMark ':' = true) (hv : rules.assignment j.skip.skip = .ok (value, l)) :
    property rules i = .ok (⟨key, value, true, false, l.spanFrom i.here⟩, l) := by
  rw [property, hc]
  simp only [if_true]
  rw [hk, ok_bind]
  dsimp only
  rw [expectMark_eq hb, ok_bind, expectMark_eq hm, ok_bind, hv, ok_bind]

theorem property_keyed {key value : Expr} {alone : Bool}
    (hk : i.rest.head?.bind plainKey? = some (key, alone)) (hm : i.skip.atMark ':' = true)
    (hv : rules.assignment i.skip.skip = .ok (value, l)) :
    property rules i = .ok (⟨key, value, false, false, l.spanFrom i.here⟩, l) := by
  rw [property, Input.atMark_eq_of_plainKey? hk, hk]
  simp only [Bool.false_eq_true, if_false]
  rw [hm, if_pos rfl, hv, ok_bind]

theorem property_shorthand {key : Expr} (hk : i.rest.head?.bind plainKey? = some (key, true))
    (he : (i.skip.atMark ',' || i.skip.atMark '}') = true) :
    property rules i = .ok (⟨key, key, false, true, i.here⟩, i.skip) := by
  have hm : i.skip.atMark ':' = false := by
    obtain he | he := Bool.or_eq_true_iff.1 he <;> exact Input.atMark_eq_of_atMark he ':'
  rw [property, Input.atMark_eq_of_plainKey? hk, hk]
  simp only [Bool.false_eq_true, if_false]
  rw [hm, if_neg Bool.false_ne_true, he]
  rfl

theorem primary_atom (ha : i.rest.head?.bind atom? = some e) :
    primary rules i = .ok (e, i.skip) := by
  rw [primary, ha]

theorem primary_function {f : Lambda} (hf : i.atKeyword "function" = true)
    (h : function rules false i = .ok (f, j)) : primary rules i = .ok (.function f, j) := by
  rw [primary, Input.atom?_eq_of_function hf, hf]
  simp only [if_true]
  rw [h, ok_bind]

theorem primary_parens (hm : i.atMark '(' = true)
    (he : sequence rules.assignment i.skip = .ok (e, j)) (hc : j.atMark ')' = true) :
    primary rules i = .ok (e, j.skip) := by
  rw [primary, Input.atom?_eq_of_atMark hm, Input.atKeyword_eq_of_atMark hm, hm]
  simp only [Bool.false_eq_true, if_false, if_true]
  rw [he, ok_bind]
  dsimp only
  rw [expectMark_eq hc, ok_bind]

theorem primary_array {es : List Expr} (hm : i.atMark '[' = true)
    (h : enclosed rules.assignment '[' ']' i = .ok (es, j)) :
    primary rules i = .ok (.array es (j.spanFrom i.here), j) := by
  rw [primary, Input.atom?_eq_of_atMark hm]
  simp only [Input.atKeyword_eq_of_atMark hm, Input.atMark_eq_of_atMark hm]
  exact congrArg (· >>= _) h

theorem primary_object {ps : List Property} (hm : i.atMark '{' = true)
    (h : enclosed (property rules) '{' '}' i = .ok (ps, j)) :
    primary rules i = .ok (.object ps (j.spanFrom i.here), j) := by
  rw [primary, Input.atom?_eq_of_atMark hm]
  simp only [Input.atKeyword_eq_of_atMark hm, Input.atMark_eq_of_atMark hm]
  exact congrArg (· >>= _) h

theorem link_named {o p : Expr} (hd : i.atMark '.' = true)
    (hp : memberName i.skip = .ok (p, j)) :
    link rules o i = .ok (.member o p false false (j.spanFrom o.span), j) := by
  rw [link, hd, if_pos rfl, namedMember, hp, ok_bind]

theorem link_namedOptional {o p : Expr} (hq : i.atOperator "?." = true)
    (h : Reads .memberName i.skip p j) (hp : memberName i.skip = .ok (p, j)) :
    link rules o i = .ok (.member o p false true (j.spanFrom o.span), j) := by
  rw [link, hq]
  simp only [Input.atMark_eq_of_atOperator hq, Input.atMark_eq_of_memberName h,
    Bool.false_eq_true, if_false, if_true]
  rw [namedMember, hp, ok_bind]

theorem computedMember_eq {o p : Expr} {optional : Bool}
    (hp : sequence rules.assignment i = .ok (p, j)) (hc : j.atMark ']' = true) :
    computedMember rules o optional i =
      .ok (.member o p true optional (j.skip.spanFrom o.span), j.skip) := by
  rw [computedMember, hp, ok_bind]
  dsimp only
  rw [expectMark_eq hc, ok_bind]

theorem link_computed {o p : Expr} (hm : i.atMark '[' = true)
    (hp : sequence rules.assignment i.skip = .ok (p, j)) (hc : j.atMark ']' = true) :
    link rules o i = .ok (.member o p true false (j.skip.spanFrom o.span), j.skip) := by
  rw [link, hm]
  simp only [Input.atMark_eq_of_atMark hm, Input.atOperator_eq_of_atMark hm]
  exact computedMember_eq hp hc

theorem link_computedOptional {o p : Expr} (hq : i.atOperator "?." = true)
    (hm : i.skip.atMark '[' = true) (hp : sequence rules.assignment i.skip.skip = .ok (p, j))
    (hc : j.atMark ']' = true) :
    link rules o i = .ok (.member o p true true (j.skip.spanFrom o.span), j.skip) := by
  rw [link, hq, hm]
  simp only [Input.atMark_eq_of_atOperator hq, Input.atMark_eq_of_atMark hm]
  exact computedMember_eq hp hc

theorem call_eq {o : Expr} {es : List Expr} {optional : Bool}
    (h : enclosed rules.assignment '(' ')' i = .ok (es, j)) :
    call rules o optional i = .ok (.call o es optional (j.spanFrom o.span), j) := by
  rw [call, h, ok_bind]

theorem link_call {o : Expr} {es : List Expr} (hm : i.atMark '(' = true)
    (h : enclosed rules.assignment '(' ')' i = .ok (es, j)) :
    link rules o i = .ok (.call o es false (j.spanFrom o.span), j) := by
  rw [link]
  simp only [Input.atMark_eq_of_atMark hm, Input.atOperator_eq_of_atMark hm]
  exact call_eq h

theorem link_callOptional {o : Expr} {es : List Expr} (hq : i.atOperator "?." = true)
    (hm : i.skip.atMark '(' = true)
    (h : enclosed rules.assignment '(' ')' i.skip = .ok (es, j)) :
    link rules o i = .ok (.call o es true (j.spanFrom o.span), j) := by
  rw [link, hq, hm]
  simp only [Input.atMark_eq_of_atOperator hq]
  exact call_eq h

theorem atLink_of_link {o : Expr} (h : Reads (.link o) i e j) : atLink i = true := by
  unfold atLink
  cases h <;> simp [*]

theorem links_none {o : Expr} {bound : Nat} (hl : atLink i = false) :
    links rules (bound + 1) o i = .ok (o, i) := by
  rw [links, hl]
  rfl

theorem links_more {o o' : Expr} {bound : Nat} (hl : atLink i = true)
    (ho : link rules o i = .ok (o', j)) (h : links rules bound o' j = .ok (e, l)) :
    links rules (bound + 1) o i = .ok (e, l) := by
  rw [links, hl, if_pos rfl, ho, ok_bind]
  exact h

theorem chain_eq {o : Expr} (ho : primary rules i = .ok (o, j))
    (h : links rules (j.left + 1) o j = .ok (e, l)) : chain rules i = .ok (e, l) := by
  rw [chain, ho, ok_bind]
  exact h

/-! ### Operations -/

theorem postfixed_none (h : chain rules i = .ok (e, j))
    (ho : operatorOf? Operator.update j = none ∨ j.atNewline = true) :
    postfixed rules i = .ok (e, j) := by
  rw [postfixed, h, ok_bind]
  dsimp only
  cases hop : operatorOf? Operator.update j with
  | none => rfl
  | some op =>
    rw [hop] at ho
    obtain ho | ho := ho
    · cases ho
    · dsimp only
      rw [ho, if_pos rfl]

theorem postfixed_update {op : String} (h : chain rules i = .ok (e, j))
    (ho : operatorOf? Operator.update j = some op) (hn : j.atNewline = false)
    (ht : e.isTarget = true) :
    postfixed rules i = .ok (.update op false e (j.skip.spanFrom e.span), j.skip) := by
  rw [postfixed, h, ok_bind]
  dsimp only
  rw [ho]
  dsimp only
  rw [hn, if_neg Bool.false_ne_true, expectTarget_eq ht, ok_bind]

theorem prefixed_update {op : String} (ho : operatorOf? Operator.update i = some op)
    (h : rules.prefixed i.skip = .ok (e, j)) (ht : e.isTarget = true) :
    prefixed rules i = .ok (.update op true e (j.spanFrom i.here), j) := by
  rw [prefixed, ho]
  dsimp only
  rw [h, ok_bind]
  dsimp only
  rw [expectTarget_eq ht, ok_bind]

theorem prefixed_unary {op : String} (ho : operatorOf? Operator.update i = none)
    (hu : unaryOf? i = some op) (h : rules.prefixed i.skip = .ok (e, j)) :
    prefixed rules i = .ok (.unary op e (j.spanFrom i.here), j) := by
  rw [prefixed, ho]
  dsimp only
  rw [hu]
  dsimp only
  rw [h, ok_bind]

theorem prefixed_none (ho : operatorOf? Operator.update i = none) (hu : unaryOf? i = none)
    (h : postfixed rules i = .ok (e, j)) : prefixed rules i = .ok (e, j) := by
  rw [prefixed, ho]
  dsimp only
  rw [hu]
  exact h

theorem power_none (h : prefixed rules i = .ok (e, j))
    (ho : j.atOperator Operator.power = false) : power rules i = .ok (e, j) := by
  rw [power, h, ok_bind]
  dsimp only
  rw [ho]
  rfl

theorem power_some {r : Expr} (h : prefixed rules i = .ok (e, j))
    (ho : j.atOperator Operator.power = true) (hr : rules.power j.skip = .ok (r, l)) :
    power rules i = .ok (.binary Operator.power e r (e.span.to r.span), l) := by
  rw [power, h, ok_bind]
  dsimp only
  rw [ho, if_pos rfl, hr, ok_bind]

theorem climb_stop {level : Operator.Level} {operand : Production Expr} {bound : Nat}
    (ho : binaryOf? level.operators i = none) :
    climb level operand (bound + 1) e i = .ok (e, i) := by
  rw [climb, ho]

theorem climb_more {level : Operator.Level} {operand : Production Expr} {bound : Nat}
    {op : String} {r e' : Expr} (ho : binaryOf? level.operators i = some op)
    (hr : operand i.skip = .ok (r, j))
    (h : climb level operand bound (binaryNode level op e r) j = .ok (e', l)) :
    climb level operand (bound + 1) e i = .ok (e', l) := by
  rw [climb, ho]
  dsimp only
  rw [hr, ok_bind]
  exact h

theorem ladder_step {level : Operator.Level} {tighter : List Operator.Level}
    {operand : Production Expr} {r : Expr} (h : ladder operand tighter i = .ok (e, j))
    (hr : climb level (ladder operand tighter) (j.left + 1) e j = .ok (r, l)) :
    ladder operand (level :: tighter) i = .ok (r, l) := by
  rw [ladder, h, ok_bind]
  exact hr

theorem conditional_none (h : operation rules i = .ok (e, j)) (ho : j.atOperator "?" = false) :
    conditional rules i = .ok (e, j) := by
  rw [conditional, h, ok_bind]
  dsimp only
  rw [ho]
  rfl

theorem conditional_some {consequent alternate : Expr} (h : operation rules i = .ok (e, j))
    (ho : j.atOperator "?" = true) (hc : rules.assignment j.skip = .ok (consequent, l))
    (hm : l.atMark ':' = true) (ha : rules.assignment l.skip = .ok (alternate, m)) :
    conditional rules i =
      .ok (.conditional e consequent alternate (e.span.to alternate.span), m) := by
  rw [conditional, h, ok_bind]
  dsimp only
  rw [ho, if_pos rfl, hc, ok_bind]
  dsimp only
  rw [expectMark_eq hm, ok_bind, ha, ok_bind]

theorem assignment_arrow (ha : atArrow i = true) (h : arrow rules i = .ok (e, j)) :
    assignment rules i = .ok (e, j) := by
  rw [assignment, ha, if_pos rfl, h]

theorem assignment_none (ha : atArrow i = false) (h : conditional rules i = .ok (e, j))
    (ho : operatorOf? Operator.assignment j = none) : assignment rules i = .ok (e, j) := by
  rw [assignment, ha, if_neg Bool.false_ne_true, h, ok_bind]
  dsimp only
  rw [ho]

theorem assignment_some {op : String} {r : Expr} (ha : atArrow i = false)
    (h : conditional rules i = .ok (e, j)) (ho : operatorOf? Operator.assignment j = some op)
    (ht : e.isTarget = true) (hr : rules.assignment j.skip = .ok (r, l)) :
    assignment rules i = .ok (.assignment op e r (e.span.to r.span), l) := by
  rw [assignment, ha, if_neg Bool.false_ne_true, h, ok_bind]
  dsimp only
  rw [ho]
  dsimp only
  rw [expectTarget_eq ht, ok_bind, hr, ok_bind]

/-! ### Statements -/

theorem statement_declaration {inBody : Bool} {f : Lambda} (hf : i.atKeyword "function" = true)
    (h : function rules true i = .ok (f, j)) :
    statement rules inBody i = .ok (.declaration f, j) := by
  rw [statement, hf, if_pos rfl, h, ok_bind]

theorem statement_bareReturn (hk : i.atKeyword "return" = true)
    (he : i.skip.atReturnEnd = true) (hm : statementEnd true i.skip = .ok j) :
    statement rules true i = .ok (.return none (j.spanFrom i.here), j) := by
  rw [statement, Input.atKeyword_eq_of_atKeyword hk, hk]
  simp only [String.reduceBEq, Bool.false_eq_true, if_false, if_true]
  rw [Input.atReturnEnd] at he
  rw [returnStatement]
  simp only [Bool.not_true, Bool.false_eq_true, if_false]
  rw [if_pos he, hm, ok_bind]

theorem statement_return (hk : i.atKeyword "return" = true)
    (he : i.skip.atReturnEnd = false) (h : sequence rules.assignment i.skip = .ok (e, j))
    (hm : statementEnd true j = .ok l) :
    statement rules true i = .ok (.return (some e) (l.spanFrom i.here), l) := by
  rw [statement, Input.atKeyword_eq_of_atKeyword hk, hk]
  simp only [String.reduceBEq, Bool.false_eq_true, if_false, if_true]
  rw [Input.atReturnEnd] at he
  rw [returnStatement]
  simp only [Bool.not_true, Bool.false_eq_true, if_false]
  rw [if_neg (Bool.eq_false_iff.1 he), h, ok_bind]
  dsimp only
  rw [hm, ok_bind]

theorem statement_expression {inBody : Bool} (hf : i.atKeyword "function" = false)
    (hk : i.atKeyword "return" = false) (h : sequence (assignment rules) i = .ok (e, j))
    (hm : statementEnd inBody j = .ok l) :
    statement rules inBody i = .ok (.expression e (l.spanFrom i.here), l) := by
  rw [statement, hf, hk]
  simp only [Bool.false_eq_true, if_false]
  rw [expressionStatement, h, ok_bind]
  dsimp only
  rw [hm, ok_bind]

end

/-! ## Readings are answers -/

section
open Input

/-- A bound above a number is a successor. -/
theorem forall_bound {P : Nat → Prop} {n : Nat} (h : ∀ bound, n ≤ bound → P (bound + 1)) :
    ∀ bound, n < bound → P bound
  | 0, hb => absurd hb (Nat.not_lt_zero n)
  | bound + 1, hb => h bound (Nat.le_of_lt_succ hb)

/-- A reading is the answer of the production. The induction is on the reading; behind a token
    the recursion may go one level less deep, and that much is enough for the tokens left. -/
theorem answers_of_reads {k : Kind} {c : Phrase k} {i j : Input} {a : k.type}
    (h : Reads c i a j) {n : Nat} (hn : i.left ≤ n) : c.Answers n i a j := by
  induction h generalizing n with
  | itemsClose hc => exact forall_bound fun bound hb => items_close hc
  | itemsMore hc hi hm hr ihi ihr =>
    refine forall_bound fun bound hb => ?_
    have hl := hi.left_le
    have hs := (consumes_of_atMark hm).2
    exact items_more hc (ihi hn).produce hm (ihr (by omega) bound (by omega))
  | itemsLast hc hi hm hl ihi =>
    exact forall_bound fun bound hb => items_last hc (ihi hn).produce hm hl
  | othersNone hm => exact forall_bound fun bound hb => others_none hm
  | othersMore hm he hr ihe ihr =>
    refine forall_bound fun bound hb => ?_
    have hs := (consumes_of_atMark hm).2
    have hl := he.left_le
    exact others_more hm (ihe (by omega)) (ihr (by omega) bound (by omega))
  | single he hr ihe ihr =>
    exact sequence_single (ihe hn) (ihr (Nat.le_trans he.left_le hn)).produce
  | several he hr ihe ihr =>
    exact sequence_several (ihe hn) (ihr (Nat.le_trans he.left_le hn)).produce
  | plainParam ht ho => exact param_plain ht ho
  | defaultParam ht ho he ihe =>
    obtain ⟨m, rfl, hm⟩ := ((consumes_of_takeName? ht).trans (leaves_skip _)).depth hn
    exact param_withDefault ht ho (ihe hm)
  | bodyEnd hb => exact forall_bound fun bound _ => blockStatements_end hb
  | bodyEmpty hs hr ihr =>
    refine forall_bound fun bound hb => ?_
    have hl := (consumes_of_atMark hs).2
    exact blockStatements_empty hs (ihr (by omega) bound (by omega))
  | bodyNext hb hs hf hr ihf ihr =>
    refine forall_bound fun bound hn' => ?_
    have hc := hf.consumes rfl
    have hl := hc.2
    exact blockStatements_next hb hs (isEmpty_eq_of_consumes hc) (ihf hn)
      (ihr (by omega) bound (by omega))
  | block hb hs ihs =>
    obtain ⟨m, rfl, hm⟩ := (consumes_of_atMark hb).depth hn
    exact block_eq hb (ihs hm).produce
  | namedFunction hf ht ho hp hb ihp ihb =>
    have hs := (consumes_of_atKeyword hf).2
    have hj := (consumes_of_takeName? ht).2
    have hl := (consumes_of_atMark ho).2
    have hm := hp.left_le
    exact function_named ht (enclosed_eq ho (ihp (n := n) (by omega)).produce) (ihb (by omega))
  | namelessFunction hf ho hp hb ihp ihb =>
    have hs := (consumes_of_atKeyword hf).2
    have hl := (consumes_of_atMark ho).2
    have hm := hp.left_le
    exact function_nameless (takeName?_eq_of_atMark ho)
      (enclosed_eq ho (ihp (n := n) (by omega)).produce) (ihb (by omega))
  | paramList ho hp ihp =>
    have hl := (consumes_of_atMark ho).2
    exact arrowParams_list ho (enclosed_eq ho (ihp (n := n) (by omega)).produce)
  | soleParam ht => exact arrowParams_sole ht
  | memberName h => exact memberName_eq_of_lexeme? h
  | computedProperty hc hk hb hm hv ihk ihv =>
    have hs := consumes_of_atMark hc
    obtain ⟨m, rfl, hi⟩ := hs.depth hn
    have hl := hk.left_le
    have hj := (consumes_of_atMark hb).2
    have hj' := (consumes_of_atMark hm).2
    exact property_computed hc (ihk hi) hb hm (ihv (by omega))
  | keyedProperty hk hm hv ihv =>
    obtain ⟨m, rfl, hi⟩ := ((consumes_of_bind hk).trans (leaves_skip _)).depth hn
    exact property_keyed hk hm (ihv hi)
  | shorthand hk he => exact property_shorthand hk he
  | atom ha => exact primary_atom ha
  | functionValue hf h ih => exact primary_function hf (ih hn)
  | parens hm he hc ihe =>
    obtain ⟨m, rfl, hi⟩ := (consumes_of_atMark hm).depth hn
    exact primary_parens hm (ihe hi) hc
  | array hm he ihe =>
    obtain ⟨m, rfl, hi⟩ := (consumes_of_atMark hm).depth hn
    exact primary_array hm (enclosed_eq hm (ihe hi).produce)
  | object hm hp ihp =>
    have hl := (consumes_of_atMark hm).2
    exact primary_object hm (enclosed_eq hm (ihp (n := n) (by omega)).produce)
  | named hd hp ihp =>
    have hl := (consumes_of_atMark hd).2
    exact link_named hd (ihp (n := n) (by omega))
  | namedOptional hq hp ihp =>
    have hl := (consumes_of_atOperator hq).2
    exact link_namedOptional hq hp (ihp (n := n) (by omega))
  | computed hm hp hc ihp =>
    obtain ⟨m, rfl, hi⟩ := (consumes_of_atMark hm).depth hn
    exact link_computed hm (ihp hi) hc
  | computedOptional hq hm hp hc ihp =>
    obtain ⟨m, rfl, hi⟩ := ((consumes_of_atOperator hq).trans (leaves_skip _)).depth hn
    exact link_computedOptional hq hm (ihp hi) hc
  | call hm he ihe =>
    obtain ⟨m, rfl, hi⟩ := (consumes_of_atMark hm).depth hn
    exact link_call hm (enclosed_eq hm (ihe hi).produce)
  | callOptional hq hm he ihe =>
    obtain ⟨m, rfl, hi⟩ := ((consumes_of_atOperator hq).trans (leaves_skip _)).depth hn
    exact link_callOptional hq hm (enclosed_eq hm (ihe hi).produce)
  | linksNone hl => exact forall_bound fun bound _ => links_none hl
  | linksMore ho hr iho ihr =>
    refine forall_bound fun bound hb => ?_
    have hl := (ho.consumes rfl).2
    exact links_more (atLink_of_link ho) (iho hn) (ihr (by omega) bound (by omega))
  | chain ho hr iho ihr =>
    exact chain_eq (iho hn) (ihr (Nat.le_trans ho.left_le hn)).produce
  | noTrailing h ho ih => exact postfixed_none (ih hn) ho
  | trailingUpdate h ho hm ht ih => exact postfixed_update (ih hn) ho hm ht
  | leadingUpdate ho h ht ih =>
    obtain ⟨m, rfl, hi⟩ := (consumes_of_operatorOf? ho).depth hn
    exact prefixed_update ho (ih hi) ht
  | unary ho hu h ih =>
    obtain ⟨m, rfl, hi⟩ := (consumes_of_unaryOf? hu).depth hn
    exact prefixed_unary ho hu (ih hi)
  | noPrefix ho hu h ih => exact prefixed_none ho hu (ih hn)
  | noPower h ho ih => exact power_none (ih hn) ho
  | power h ho hr ih ihr =>
    obtain ⟨m, rfl, hi⟩ := (h.leaves.consumes (consumes_of_atOperator ho)).depth hn
    exact power_some (ih hn) ho (ihr hi)
  | ladderTop h ih => exact ih hn
  | ladderStep h hr ih ihr =>
    exact ladder_step (ih hn) (ihr (Nat.le_trans h.left_le hn)).produce
  | climbStop ho => exact forall_bound fun bound _ => climb_stop ho
  | climbMore ho hr h ihr ih =>
    refine forall_bound fun bound hb => ?_
    have hs := (consumes_of_binaryOf? ho).2
    have hl := hr.left_le
    exact climb_more ho (ihr (by omega)) (ih (by omega) bound (by omega))
  | noConditional h ho ih => exact conditional_none (ih hn) ho
  | conditional h ho hc hm ha ih ihc iha =>
    obtain ⟨m, rfl, hi⟩ := (h.leaves.consumes (consumes_of_atOperator ho)).depth hn
    have hl := hc.left_le
    have hs := (consumes_of_atMark hm).2
    exact conditional_some (ih hn) ho (ihc hi) hm (iha (by omega))
  | blockArrow ha hp ho hb ihp ihb =>
    have hl := hp.left_le
    have hs := (consumes_of_atOperator ho).2
    exact assignment_arrow ha
      (arrow_eq (ihp hn) ho (arrowBody_block hb.atMark_of_block (ihb (by omega))))
  | arrow ha hp ho hm he ihp ihe =>
    obtain ⟨m, rfl, hi⟩ := (hp.leaves.consumes (consumes_of_atOperator ho)).depth hn
    exact assignment_arrow ha (arrow_eq (ihp hn) ho (arrowBody_expression hm (ihe hi)))
  | noAssignment ha h ho ih => exact assignment_none ha (ih hn) ho
  | assignment ha h ho ht hr ih ihr =>
    obtain ⟨m, rfl, hi⟩ := (h.leaves.consumes (consumes_of_operatorOf? ho)).depth hn
    exact assignment_some ha (ih hn) ho ht (ihr hi)
  | declaration hf h ih => exact statement_declaration hf (ih hn)
  | bareReturn hk he hm => exact statement_bareReturn hk he hm
  | «return» hk he h hm ih =>
    obtain ⟨m, rfl, hi⟩ := (consumes_of_atKeyword hk).depth hn
    exact statement_return hk he (ih hi) hm
  | expression hf hk h hm ih => exact statement_expression hf hk (ih hn) hm

theorem programStatements_of_readsAll {i : Input} {ss : List Statement} (h : ReadsAll i ss)
    {n : Nat} (hn : i.left ≤ n) : ∀ bound, i.left < bound →
      ∃ j, programStatements (statement (rules n) false) bound i = .ok (ss, j) := by
  induction h with
  | @done i he =>
    refine forall_bound fun bound _ => ⟨i, ?_⟩
    rw [programStatements, he]
    rfl
  | @empty i ss hs _ ih =>
    refine forall_bound fun bound hb => ?_
    have hl := (consumes_of_atMark hs).2
    obtain ⟨j, hj⟩ := ih (by omega) bound (by omega)
    refine ⟨j, ?_⟩
    rw [programStatements, isEmpty_eq_of_consumes (consumes_of_atMark hs), hs]
    exact hj
  | @next i s j ss hs hf _ ih =>
    refine forall_bound fun bound hb => ?_
    have hc := hf.consumes rfl
    have hl := hc.2
    obtain ⟨k, hk⟩ := ih (by omega) bound (by omega)
    have hf' : statement (rules n) false i = .ok (s, j) := answers_of_reads hf hn
    refine ⟨k, ?_⟩
    rw [programStatements, isEmpty_eq_of_consumes hc, hs]
    simp only [Bool.false_eq_true, if_false]
    rw [hf', ok_bind]
    dsimp only
    rw [hk, ok_bind]

/-- The statements that the grammar reads from an input are the answer of the parser. -/
theorem program_of_readsAll {i : Input} {ss : List Statement} (h : ReadsAll i ss) :
    ∃ j, program i = .ok (ss, j) :=
  programStatements_of_readsAll h (Nat.le_refl _) _ (Nat.lt_succ_self _)

end

end TemplateExpr
