/-
  Unbalanced delimiters are never accepted. The brackets of the tokens are checked from the left
  to the right with a stack of those that are still open; whatever a production takes passes the
  check by itself.

  * `Nested.closes_append`: nested tokens leave the stack as it was.
  * `Production.matches_rules`: what every production takes, however deep the recursion goes.
  * `delimiters_match`: programs that are accepted, and every production.
-/
import TemplateExpr.Proofs.Grammar.Brackets
import TemplateExpr.Proofs.Grammar.Sound
import TemplateExpr.Proofs.Printing.OfText

namespace TemplateExpr
open Source Production

/-! ## The check -/

/-- The parenthesis, bracket or brace that the token is. -/
def Token.bracket? (token : Token) : Option Char :=
  match token.lexeme with
  | .mark c => if (Lexeme.mark c).isBracket then some c else none
  | _ => none

/-- The brackets of the tokens in their order. -/
def bracketWord (tokens : List Token) : List Char :=
  tokens.filterMap Token.bracket?

/-- What closes the bracket, if it is one that opens. -/
def partner? (c : Char) : Option Char :=
  bracketPairs.lookup c

/-- With the partners of the open brackets awaited, the innermost first: each bracket that closes
    is the one that is awaited next, and in the end none is awaited. -/
def closes : List Char → List Char → Bool
  | awaited, [] => awaited.isEmpty
  | awaited, c :: cs =>
    match partner? c with
    | some d => closes (d :: awaited) cs
    | none =>
      match awaited with
      | [] => false
      | d :: awaited => d == c && closes awaited cs

/-- The brackets of the tokens are properly nested. -/
def Token.Matched (tokens : List Token) : Prop :=
  closes [] (bracketWord tokens) = true

instance (tokens : List Token) : Decidable (Token.Matched tokens) :=
  inferInstanceAs (Decidable (closes [] (bracketWord tokens) = true))

section
variable {tokens front back : List Token} {token : Token}

theorem bracketWord_append (front back : List Token) :
    bracketWord (front ++ back) = bracketWord front ++ bracketWord back :=
  List.filterMap_append

/-- The brackets do not depend on the places. -/
theorem bracketWord_mapSpan (f : Span → Span) (tokens : List Token) :
    bracketWord (tokens.map (·.mapSpan f)) = bracketWord tokens := by
  rw [bracketWord, List.filterMap_map]
  rfl

theorem Token.bracket?_of_isBracket (h : token.lexeme.isBracket = false) :
    token.bracket? = none := by
  unfold bracket?
  split
  · next c hc =>
    rw [hc] at h
    rw [h]
    rfl
  · rfl

theorem bracketWord_pair {opening closing : Char} {o c : Token}
    (hp : (opening, closing) ∈ bracketPairs) (ho : o.lexeme = .mark opening)
    (hc : c.lexeme = .mark closing) (tokens : List Token) :
    bracketWord (o :: tokens ++ [c]) = opening :: (bracketWord tokens ++ [closing]) ∧
      partner? opening = some closing ∧ partner? closing = none := by
  have table : ∀ pair ∈ bracketPairs, (Lexeme.mark pair.1).isBracket = true ∧
      (Lexeme.mark pair.2).isBracket = true ∧
      partner? pair.1 = some pair.2 ∧ partner? pair.2 = none :=
    List.forall_mem_cons.2 ⟨by decide, List.forall_mem_cons.2
      ⟨by decide, List.forall_mem_singleton.2 (by decide)⟩⟩
  obtain ⟨hopen, hclose, hpartner, hnone⟩ := table _ hp
  refine ⟨?_, hpartner, hnone⟩
  have hfirst : o.bracket? = some opening := by
    rw [Token.bracket?, ho]
    exact if_pos hopen
  have hlast : c.bracket? = some closing := by
    rw [Token.bracket?, hc]
    exact if_pos hclose
  rw [bracketWord_append, bracketWord, bracketWord, List.filterMap_cons_some hfirst,
    List.filterMap_cons_some hlast]
  rfl

theorem closes_of_opens {c d : Char} (h : partner? c = some d) (awaited cs : List Char) :
    closes awaited (c :: cs) = closes (d :: awaited) cs := by
  rw [closes.eq_def]
  dsimp only
  rw [h]

theorem closes_of_closes {c d : Char} (h : partner? c = none) (awaited cs : List Char) :
    closes (d :: awaited) (c :: cs) = (d == c && closes awaited cs) := by
  rw [closes, h]

/-- Nested tokens leave awaited what was awaited before them. -/
theorem Nested.closes_append (h : Nested tokens) (awaited rest : List Char) :
    closes awaited (bracketWord tokens ++ rest) = closes awaited rest := by
  induction h generalizing awaited rest with
  | nil => rfl
  | plain hb => rw [bracketWord, List.filterMap_cons_none (Token.bracket?_of_isBracket hb)]; rfl
  | @pair opening closing o c tokens hp ho hc _ ih =>
    obtain ⟨hword, hopen, hclose⟩ := bracketWord_pair hp ho hc tokens
    rw [hword, List.cons_append, closes_of_opens hopen, List.append_assoc, ih,
      List.singleton_append, closes_of_closes hclose, beq_self_eq_true, Bool.true_and]
  | append _ _ ihf ihb => rw [bracketWord_append, List.append_assoc, ihf, ihb]

theorem Nested.matched (h : Nested tokens) : Token.Matched tokens := by
  have hall := h.closes_append [] []
  rwa [List.append_nil] at hall

end

/-! ## Productions -/

/-- The tokens between the two inputs are matched. -/
def MatchedTo (i j : Input) : Prop :=
  ∃ taken, i.rest = taken ++ j.rest ∧ Token.Matched taken

theorem NestedTo.matchedTo {i j : Input} (h : NestedTo i j) : MatchedTo i j := by
  obtain ⟨taken, hrest, hn⟩ := h
  exact ⟨taken, hrest, hn.matched⟩

namespace Production

/-- Whenever the production answers, it has taken matched tokens. -/
def TakesMatched {α : Type} (p : Production α) : Prop :=
  ∀ ⦃i : Input⦄ ⦃a : α⦄ ⦃j : Input⦄, p i = .ok (a, j) → MatchedTo i j

/-- Every production takes matched tokens. Functions and `return` are read only where their
    reserved word comes next, which is the first token that they take. -/
structure MatchesAll (rules : Rules) : Prop where
  expression : TakesMatched (sequence rules.assignment)
  assignment : TakesMatched (assignment rules)
  arrow : TakesMatched (arrow rules)
  arrowParams : TakesMatched (arrowParams rules)
  arrowBody : TakesMatched (arrowBody rules)
  params : TakesMatched (params rules)
  param : TakesMatched (param rules)
  function : ∀ declaration i f j, i.atKeyword "function" = true →
    function rules declaration i = .ok (f, j) → MatchedTo i j
  functionBody : TakesMatched (block rules)
  conditional : TakesMatched (conditional rules)
  binary : ∀ levels, TakesMatched (ladder (power rules) levels)
  power : TakesMatched (power rules)
  prefixed : TakesMatched (prefixed rules)
  postfixed : TakesMatched (postfixed rules)
  chain : TakesMatched (chain rules)
  memberName : TakesMatched memberName
  arguments : TakesMatched (enclosed rules.assignment '(' ')')
  primary : TakesMatched (primary rules)
  array : TakesMatched (enclosed rules.assignment '[' ']')
  object : TakesMatched (enclosed (property rules) '{' '}')
  property : TakesMatched (property rules)
  statement : ∀ inBody, TakesMatched (statement rules inBody)
  returnStatement : ∀ inBody i s j, i.atKeyword "return" = true →
    returnStatement rules inBody i = .ok (s, j) → MatchedTo i j
  statementEnd : ∀ inBody i j, statementEnd inBody i = .ok j → MatchedTo i j

section
variable {k : Kind} {c : Phrase k} {p : Production k.type} {rules : Rules}

/-- What is read of a phrase is matched, unless the phrase ends with a closing bracket of its
    own. -/
theorem Sound.takesMatched (h : Sound c p) (hc : ∀ {i j}, c.Nests i j → NestedTo i j) :
    TakesMatched p :=
  fun _ _ _ hp => (hc (nests_of_reads (h hp))).matchedTo

theorem Sound.takesMatched_enclosed (h : Sound c p) (hc : ∀ {i j}, c.Nests i j → NestedTo i j)
    {opening closing : Char} (hp : (opening, closing) ∈ bracketPairs) :
    TakesMatched (enclosed p opening closing) := by
  intro i as j hi
  obtain ⟨ho, hr⟩ := enclosed_eq_ok h hi
  exact (nestedTo_pair hp ho (nests_of_reads hr hc)).matchedTo

theorem nestedTo_arrowBody (hr : SoundRules rules) {i j : Input} {b : Body}
    (h : arrowBody rules i = .ok (b, j)) : NestedTo i j := by
  unfold arrowBody at h
  cases hb : i.atMark '{' with
  | true =>
    rw [hb] at h
    exact nests_of_reads (sound_block hr h)
  | false =>
    rw [hb] at h
    obtain ⟨value, l, hv, h⟩ := bind_eq_ok₂ h
    cases h
    exact nests_of_reads (hr.assignment hv)

/-- An arrow function takes nested tokens, also where none was seen to come. -/
theorem nestedTo_arrow (hr : SoundRules rules) {i j : Input} {e : Expr}
    (h : Production.arrow rules i = .ok (e, j)) : NestedTo i j := by
  obtain ⟨ps, l, hp, h⟩ := bind_eq_ok₂ h
  obtain ⟨ho, h⟩ := expectOperator_bind_eq_ok h
  obtain ⟨b, m, hb, h⟩ := bind_eq_ok₂ h
  cases h
  have hparams : NestedTo i l := nests_of_reads (sound_arrowParams hr hp)
  exact (hparams.trans (nestedTo_skip_operator ho)).trans (nestedTo_arrowBody hr hb)

theorem matchesAll_of_soundRules (hr : SoundRules rules) : MatchesAll rules where
  expression := (sound_sequence hr.assignment).takesMatched id
  assignment := (sound_assignment hr).takesMatched id
  arrow := fun _ _ _ h => (nestedTo_arrow hr h).matchedTo
  arrowParams := (sound_arrowParams hr).takesMatched id
  arrowBody := fun _ _ _ h => (nestedTo_arrowBody hr h).matchedTo
  params := (sound_param hr).takesMatched_enclosed id (by decide)
  param := (sound_param hr).takesMatched id
  function := fun _ i f j hf h =>
    have hn : NestedTo i j := nests_of_reads (sound_function hr hf h)
    hn.matchedTo
  functionBody := (sound_block hr).takesMatched id
  conditional := (sound_conditional hr).takesMatched id
  binary := fun levels => (sound_ladder hr levels).takesMatched id
  power := (sound_power hr).takesMatched id
  prefixed := (sound_prefixed hr).takesMatched id
  postfixed := (sound_postfixed hr).takesMatched id
  chain := (sound_chain hr).takesMatched id
  memberName := sound_memberName.takesMatched id
  arguments := Sound.takesMatched_enclosed hr.assignment id (by decide)
  primary := (sound_primary hr).takesMatched id
  array := Sound.takesMatched_enclosed hr.assignment id (by decide)
  object := (sound_property hr).takesMatched_enclosed id (by decide)
  property := (sound_property hr).takesMatched id
  statement := fun inBody => (sound_statement hr inBody).takesMatched id
  returnStatement := fun inBody i s j hk h => by
    have hf : i.atKeyword "function" = false := by
      rw [Input.atKeyword, Input.atKeyword_iff.1 hk]
      rfl
    have hs : statement rules inBody i = .ok (s, j) := by
      rw [Production.statement, hf, hk]
      exact h
    exact (sound_statement hr inBody).takesMatched id hs
  statementEnd := fun _ _ _ h => (nestedTo_statementEnd h).matchedTo

end

theorem matches_rules (n : Nat) : MatchesAll (rules n) :=
  matchesAll_of_soundRules (sound_rules n)

end Production

/-- The brackets of the tokens of every text that is accepted are matched, and so are those that
    any production takes when it answers. -/
theorem delimiters_match :
    (∀ (g : Grammar) (origin : Option Origin) (url : Option String) (text : List Char)
      (p : Program), Program.ofText g origin url text = .ok p →
        Token.Matched (Token.ofText g text)) ∧
    ∀ n, MatchesAll (rules n) := by
  refine ⟨fun g origin url text p h => ?_, matches_rules⟩
  have hall := (nested_of_readsAll (readsAll_of_ofText h).1).matched
  change closes [] (bracketWord ((Token.ofText g text).map (·.mapSpan (·.within origin)))) = true
    at hall
  rwa [bracketWord_mapSpan] at hall

/-- `f([a, {b: (c)}])(x => {return [x]})`. -/
theorem delimiters_match_calls :
    let text := "f([a, \x7bb: (c)\x7d])(x => \x7breturn [x]\x7d)".toList
    bracketWord (Token.ofText .template text) =
      ['(', '[', '{', '(', ')', '}', ']', ')', '(', '{', '[', ']', '}', ')'] ∧
    ∃ p, Program.ofText .template none none text = .ok p ∧
      Token.Matched (Token.ofText .template text) := by
  intro text
  obtain ⟨p, h⟩ : ∃ p, Program.ofText .template none none text = .ok p :=
    exists_eq_ok_of_isOk (by decide +kernel)
  exact ⟨by decide +kernel, p, h, delimiters_match.1 _ _ _ _ _ h⟩

end TemplateExpr
