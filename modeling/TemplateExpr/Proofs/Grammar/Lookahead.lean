/-
  The test for an arrow function decides like the productions. It counts parentheses over the
  tokens that are left, while the parameters are read with all that may stand in their default
  values; both find the same closing parenthesis, since what is read is nested.

  * `atArrow_eq_of_arrowParams`: behind the parameters of an arrow function the test has seen
    whether `=>` follows.
  * `conditional_stops`: where the test holds, an expression that is no arrow function stops in
    front of the `=>`.
  * `Production.conditional_refuses` and its companions: no production but that of arrow functions
    takes a `=>`.
  * `countedArrow_eq`: the count of the test never goes below zero.
-/
import TemplateExpr.Proofs.Grammar.Arrows
import TemplateExpr.Proofs.Grammar.Brackets
import TemplateExpr.Proofs.Grammar.Complete

namespace TemplateExpr
open Production
open Input (atMark_eq_of_atOperator)

/-! ## The test -/

section
variable {i j : Input}

/-- In front of a parenthesis the test looks for its partner. -/
theorem atArrow_of_atMark (h : i.atMark '(' = true) :
    atArrow i = closesBeforeArrow 1 i.skip.rest := by
  obtain ⟨last, rest, stop⟩ := i
  cases rest with
  | nil => cases h
  | cons token rest =>
    obtain ⟨lexeme, raw, newline, span⟩ := token
    obtain rfl : lexeme = .mark '(' := Option.some.inj (Input.atMark_iff.1 h)
    rfl

/-- Behind a name the test looks at the next token. -/
theorem atArrow_of_takeName? {id : Identifier} (h : i.takeName? = some (id, j)) :
    atArrow i = j.atOperator "=>" := by
  obtain ⟨text, hl, -, rfl⟩ := Input.takeName?_eq_some_iff.1 h
  obtain ⟨last, rest, stop⟩ := i
  cases rest with
  | nil => cases hl
  | cons token rest =>
    obtain ⟨lexeme, raw, newline, span⟩ := token
    obtain rfl : lexeme = .name text := Option.some.inj hl
    cases rest <;> rfl

/-- Where the test holds, a name or a parenthesis comes next. -/
theorem begins_of_atArrow (h : atArrow i = true) :
    (∃ text, i.lexeme? = some (.name text)) ∨ i.lexeme? = some (.mark '(') := by
  obtain ⟨last, rest, stop⟩ := i
  cases rest with
  | nil => cases h
  | cons token rest =>
    obtain ⟨lexeme, raw, newline, span⟩ := token
    unfold atArrow at h
    dsimp only at h
    split at h
    · exact .inl ⟨_, rfl⟩
    · exact .inr rfl
    · cases h

/-- Where the test holds, no other lexeme comes next. -/
theorem not_of_atArrow {lexeme : Lexeme} (h : atArrow i = true) (hl : i.lexeme? = some lexeme)
    (hn : ∀ text, lexeme ≠ .name text) (hm : lexeme ≠ .mark '(') : False := by
  obtain ⟨text, hb⟩ | hb := begins_of_atArrow h
  · exact hn text (Option.some.inj (hl.symm.trans hb))
  · exact hm (Option.some.inj (hl.symm.trans hb))

/-- The search ends at the parenthesis that was opened before the nested tokens. -/
theorem closesBeforeArrow_of_closedTo (h : ClosedTo ')' i j) :
    closesBeforeArrow 1 i.rest = j.atOperator "=>" := by
  obtain ⟨tokens, c, hr, hn, hc⟩ := h
  rw [hr, hn.closesBeforeArrow (Nat.le_refl 1), closesBeforeArrow, hc]
  rw [if_neg (by decide), if_pos (by decide), if_pos (Nat.le_refl 1), Input.atOperator,
    Input.lexeme?, Option.any_map]

/-- Behind the parameters of an arrow function the test has seen whether `=>` follows. -/
theorem atArrow_eq_of_arrowParams {ps : List Param} (h : Reads .arrowParams i ps j) :
    atArrow i = j.atOperator "=>" := by
  cases h with
  | paramList hm hp =>
    rw [atArrow_of_atMark hm]
    exact closesBeforeArrow_of_closedTo (nests_of_reads hp id)
  | soleParam ht => exact atArrow_of_takeName? ht

/-! ### The count -/

/-- The search from the opening parenthesis on, with a count of the parentheses that are open:
    no answer if the count would go below zero. -/
def countedArrow : Nat → List Token → Option Bool
  | _, [] => some false
  | depth, token :: rest =>
    if token.lexeme.isMark '(' then countedArrow (depth + 1) rest
    else if token.lexeme.isMark ')' then
      if depth = 0 then none
      else if depth - 1 = 0 then some (rest.head?.any (·.lexeme.isOperator "=>"))
      else countedArrow (depth - 1) rest
    else countedArrow depth rest

/-- While a parenthesis is open, the count stays above zero. -/
theorem countedArrow_succ (depth : Nat) (tokens : List Token) :
    countedArrow (depth + 1) tokens = some (closesBeforeArrow (depth + 1) tokens) := by
  induction tokens generalizing depth with
  | nil => rfl
  | cons token rest ih =>
    rw [countedArrow, closesBeforeArrow]
    split
    · exact ih _
    · split
      · cases depth with
        | zero => rfl
        | succ depth => exact ih depth
      · exact ih depth

/-- From a parenthesis on the count never goes below zero, and finds what the test finds. -/
theorem countedArrow_eq (h : i.atMark '(' = true) :
    countedArrow 0 i.rest = some (atArrow i) := by
  rw [atArrow_of_atMark h]
  obtain ⟨token, rest, hr, ht⟩ := Input.lexeme?_eq_some_iff.1 (Input.atMark_iff.1 h)
  rw [Input.skip, hr, countedArrow, ht, if_pos (by decide)]
  exact countedArrow_succ 0 rest

end

/-! ## In front of `=>` -/

section
variable {i j : Input} (h : i.atOperator "=>" = true)
include h

theorem takeName?_of_arrow : i.takeName? = none :=
  Input.takeName?_eq_none_iff.2 fun text ht => by
    rw [Input.atOperator_iff.1 h] at ht
    cases ht

theorem atom?_of_arrow : i.rest.head?.bind atom? = none := by
  obtain ⟨⟨lexeme, raw, newline, span⟩, rest, hr, rfl⟩ :=
    Input.lexeme?_eq_some_iff.1 (Input.atOperator_iff.1 h)
  rw [hr]
  rfl

theorem plainKey?_of_arrow : i.rest.head?.bind plainKey? = none := by
  obtain ⟨⟨lexeme, raw, newline, span⟩, rest, hr, rfl⟩ :=
    Input.lexeme?_eq_some_iff.1 (Input.atOperator_iff.1 h)
  rw [hr]
  rfl

theorem atKeyword_of_arrow (word : String) : i.atKeyword word = false := by
  rw [Input.atKeyword, Input.atOperator_iff.1 h]
  rfl

theorem atOperator_of_arrow {symbol : String} (hs : symbol ≠ "=>") :
    i.atOperator symbol = false := by
  rw [Input.atOperator, Input.atOperator_iff.1 h]
  exact beq_eq_false_iff_ne.2 hs.symm

theorem operatorOf?_of_arrow {operators : List String} (ho : "=>" ∉ operators) :
    operatorOf? operators i = none := by
  rw [operatorOf?, Input.atOperator_iff.1 h]
  exact if_neg (by simpa using ho)

theorem binaryOf?_of_arrow {operators : List String} (ho : "=>" ∉ operators) :
    binaryOf? operators i = none := by
  rw [binaryOf?, Input.atOperator_iff.1 h]
  exact if_neg (by simpa using ho)

theorem unaryOf?_of_arrow : unaryOf? i = none := by
  rw [unaryOf?, Input.atOperator_iff.1 h]
  rfl

theorem isEmpty_of_arrow : i.rest.isEmpty = false :=
  Input.isEmpty_eq_of_lexeme? (Input.atOperator_iff.1 h)

theorem atLink_of_arrow : atLink i = false := by
  rw [atLink, atMark_eq_of_atOperator h, atMark_eq_of_atOperator h, atMark_eq_of_atOperator h,
    atOperator_of_arrow h (by decide)]
  rfl

theorem atArrow_of_arrow : atArrow i = false := by
  cases ha : atArrow i with
  | false => rfl
  | true => exact (not_of_atArrow ha (Input.atOperator_iff.1 h) (by simp) (by simp)).elim

end

/-- The production takes nothing: it refuses the next token, or it answers without it. -/
def TakesNothing {α : Type} (mayBeEmpty : Bool) (i : Input) (p : Production α) : Prop :=
  p i = .error i.refusal ∨ (mayBeEmpty = true ∧ ∃ a, p i = .ok (a, i))

namespace Production

section
variable {rules : Rules} {i : Input} (h : i.atOperator "=>" = true)
include h

theorem expectMark_refuses (c : Char) : i.expectMark c = .error i.refusal := by
  rw [Input.expectMark, atMark_eq_of_atOperator h]
  rfl

theorem items_refuses {α : Type} {item : Production α} {mayBeEmpty : Bool}
    (hi : TakesNothing mayBeEmpty i item) (close : Char) (bound : Nat) :
    items item close (bound + 1) i = .error i.refusal := by
  rw [items, atMark_eq_of_atOperator h, if_neg Bool.false_ne_true]
  obtain hi | ⟨-, a, hi⟩ := hi
  · rw [hi]
    rfl
  · rw [hi, ok_bind]
    dsimp only
    rw [atMark_eq_of_atOperator h, if_neg Bool.false_ne_true, expectMark_refuses h]
    rfl

theorem others_stays (item : Production Expr) (bound : Nat) :
    others item (bound + 1) i = .ok ([], i) := by
  rw [others, atMark_eq_of_atOperator h, if_neg Bool.false_ne_true]

theorem blockStatements_refuses {statement : Production Statement}
    (hs : statement i = .error i.refusal) (bound : Nat) :
    blockStatements statement (bound + 1) i = .error i.refusal := by
  rw [blockStatements, atMark_eq_of_atOperator h, isEmpty_of_arrow h, atMark_eq_of_atOperator h,
    if_neg Bool.false_ne_true, if_neg Bool.false_ne_true, if_neg Bool.false_ne_true, hs]
  rfl

theorem links_stays (bound : Nat) (operand : Expr) :
    links rules (bound + 1) operand i = .ok (operand, i) := by
  rw [links, atLink_of_arrow h, if_neg Bool.false_ne_true]

theorem climb_stays {level : Operator.Level} (hl : "=>" ∉ level.operators)
    (operand : Production Expr) (bound : Nat) (left : Expr) :
    climb level operand (bound + 1) left i = .ok (left, i) := by
  rw [climb, binaryOf?_of_arrow h hl]

theorem enclosed_refuses {α : Type} (item : Production α) (opening close : Char) :
    enclosed item opening close i = .error i.refusal := by
  rw [enclosed, expectMark_refuses h]
  rfl

theorem param_refuses : param rules i = .error i.refusal := by
  rw [param, takeName?_of_arrow h]

theorem block_refuses : block rules i = .error i.refusal := by
  rw [block, expectMark_refuses h]
  rfl

theorem arrowParams_refuses : arrowParams rules i = .error i.refusal := by
  rw [arrowParams, atMark_eq_of_atOperator h, takeName?_of_arrow h]
  rfl

theorem arrow_refuses : arrow rules i = .error i.refusal := by
  rw [arrow, arrowParams_refuses h]
  rfl

theorem memberName_refuses : memberName i = .error i.refusal := by
  obtain ⟨last, rest, stop⟩ := i
  obtain ⟨⟨lexeme, raw, newline, span⟩, rest', rfl, rfl⟩ :=
    Input.lexeme?_eq_some_iff.1 (Input.atOperator_iff.1 h)
  rfl

theorem property_refuses : property rules i = .error i.refusal := by
  rw [property, atMark_eq_of_atOperator h, plainKey?_of_arrow h]
  rfl

theorem link_refuses (operand : Expr) : link rules operand i = .error i.refusal := by
  rw [link, atMark_eq_of_atOperator h, atOperator_of_arrow h (by decide),
    atMark_eq_of_atOperator h, if_neg Bool.false_ne_true, if_neg Bool.false_ne_true,
    if_neg Bool.false_ne_true, call, enclosed_refuses h]
  rfl

theorem primary_refuses : primary rules i = .error i.refusal := by
  rw [primary, atom?_of_arrow h, atKeyword_of_arrow h, atMark_eq_of_atOperator h,
    atMark_eq_of_atOperator h, atMark_eq_of_atOperator h]
  rfl

theorem chain_refuses : chain rules i = .error i.refusal := by
  rw [chain, primary_refuses h]
  rfl

theorem postfixed_refuses : postfixed rules i = .error i.refusal := by
  rw [postfixed, chain_refuses h]
  rfl

theorem prefixed_refuses : prefixed rules i = .error i.refusal := by
  rw [prefixed, operatorOf?_of_arrow h (by decide), unaryOf?_of_arrow h]
  exact postfixed_refuses h

theorem power_refuses : power rules i = .error i.refusal := by
  rw [power, prefixed_refuses h]
  rfl

theorem ladder_refuses (levels : List Operator.Level) :
    ladder (power rules) levels i = .error i.refusal := by
  induction levels with
  | nil => exact power_refuses h
  | cons level tighter ih =>
    rw [ladder, ih]
    rfl

theorem conditional_refuses : conditional rules i = .error i.refusal := by
  rw [conditional, operation, ladder_refuses h]
  rfl

theorem assignment_refuses : assignment rules i = .error i.refusal := by
  rw [assignment, atArrow_of_arrow h, if_neg Bool.false_ne_true, conditional_refuses h]
  rfl

omit h in
theorem sequence_refuses {item : Production Expr} (hi : item i = .error i.refusal) :
    sequence item i = .error i.refusal := by
  rw [sequence, hi]
  rfl

theorem statement_refuses (inBody : Bool) : statement rules inBody i = .error i.refusal := by
  rw [statement, atKeyword_of_arrow h, atKeyword_of_arrow h, if_neg Bool.false_ne_true,
    if_neg Bool.false_ne_true, expressionStatement, sequence_refuses (assignment_refuses h)]
  rfl

end

end Production

/-! ### Every phrase -/

/-- The operators of the phrase are some of the language, and a function has its keyword in
    front. -/
def Phrase.Proper {k : Kind} (i : Input) : Phrase k → Prop
  | .ladder levels => levels ⊆ Operator.levels
  | .climb level _ _ => level ∈ Operator.levels
  | .function _ => i.atKeyword "function" = true
  | .items item _ => item.Proper i
  | _ => True

/-- No phrase takes a `=>`, whatever stands behind it: only the production of arrow functions
    does, when it has read the parameters. -/
theorem takesNothing_of_arrow {i : Input} (h : i.atOperator "=>" = true) (n : Nat) {k : Kind}
    (c : Phrase k) (hc : c.Proper i) : TakesNothing c.mayBeEmpty i (c.produce n) := by
  induction c with
  | assignment => exact .inl (assignment_refuses h)
  | conditional => exact .inl (conditional_refuses h)
  | ladder levels => exact .inl (ladder_refuses h levels)
  | climb level tighter left =>
    exact .inr ⟨rfl, left, climb_stays h (not_mem_operators hc) _ _ left⟩
  | power => exact .inl (power_refuses h)
  | prefixed => exact .inl (prefixed_refuses h)
  | postfixed => exact .inl (postfixed_refuses h)
  | chain => exact .inl (chain_refuses h)
  | links operand => exact .inr ⟨rfl, operand, links_stays h _ operand⟩
  | link operand => exact .inl (link_refuses h operand)
  | primary => exact .inl (primary_refuses h)
  | memberName => exact .inl (memberName_refuses h)
  | sequence => exact .inl (sequence_refuses (assignment_refuses h))
  | others => exact .inr ⟨rfl, [], others_stays h _ _⟩
  | items item close ih => exact .inl (items_refuses h (ih hc) close _)
  | property => exact .inl (property_refuses h)
  | param => exact .inl (param_refuses h)
  | arrowParams => exact .inl (arrowParams_refuses h)
  | block => exact .inl (block_refuses h)
  | blockStatements => exact .inl (blockStatements_refuses h (statement_refuses h true) _)
  | function => rw [Phrase.Proper, atKeyword_of_arrow h] at hc; cases hc
  | statement inBody => exact .inl (statement_refuses h inBody)

/-! ## Where the test holds -/

section
variable {i j : Input} {e : Expr}

/-- A phrase that is read in front of `=>` is empty. -/
theorem Reads.eq_of_arrow {k : Kind} {c : Phrase k} {a : k.type} (hr : Reads c i a j)
    (h : i.atOperator "=>" = true) (hc : c.Proper i) : j = i := by
  have ha := (answers_of_reads hr (Nat.le_refl i.left)).produce
  obtain hn | ⟨-, b, hn⟩ := takesNothing_of_arrow h i.left c hc <;> rw [ha] at hn <;> cases hn
  rfl

/-- Where the test holds, a single value stops in front of the `=>`. -/
theorem primary_stops (h : Reads .primary i e j) (ha : atArrow i = true) :
    j.atOperator "=>" = true := by
  cases h with
  | atom hatom =>
    obtain ⟨text, hl⟩ | hm := begins_of_atArrow ha
    · rw [← atArrow_of_takeName? (Input.takeName?_eq_some_iff.2 ⟨text, hl, rfl, rfl⟩)]
      exact ha
    · rw [Input.atom?_eq_of_atMark (Input.atMark_iff.2 hm)] at hatom
      cases hatom
  | parens hm hs hc =>
    have hclosed := NestedTo.closedTo (nests_of_reads hs) (closedTo_skip hc)
    rw [← closesBeforeArrow_of_closedTo hclosed, ← atArrow_of_atMark hm]
    exact ha
  | functionValue hf =>
    exact (not_of_atArrow ha (Input.atKeyword_iff.1 hf) (by simp) (by simp)).elim
  | array hm => exact (not_of_atArrow ha (Input.atMark_iff.1 hm) (by simp) (by simp)).elim
  | object hm => exact (not_of_atArrow ha (Input.atMark_iff.1 hm) (by simp) (by simp)).elim

theorem chain_stops (h : Reads .chain i e j) (ha : atArrow i = true) :
    j.atOperator "=>" = true := by
  cases h with
  | chain ho hr =>
    have hs := primary_stops ho ha
    rw [hr.eq_of_arrow hs trivial]
    exact hs

theorem postfixed_stops (h : Reads .postfixed i e j) (ha : atArrow i = true) :
    j.atOperator "=>" = true := by
  cases h with
  | noTrailing hc => exact chain_stops hc ha
  | trailingUpdate hc ho =>
    rw [operatorOf?_of_arrow (chain_stops hc ha) (by decide)] at ho
    cases ho

theorem prefixed_stops (h : Reads .prefixed i e j) (ha : atArrow i = true) :
    j.atOperator "=>" = true := by
  cases h with
  | leadingUpdate ho =>
    have hl := (operatorOf?_eq_some_iff.1 ho).1
    exact (not_of_atArrow ha hl (by simp) (by simp)).elim
  | unary _ hu =>
    obtain ⟨hl, -⟩ | ⟨hl, -⟩ := unaryOf?_eq_some_iff.1 hu <;>
      exact (not_of_atArrow ha hl (by simp) (by simp)).elim
  | noPrefix _ _ hp => exact postfixed_stops hp ha

theorem power_stops (h : Reads .power i e j) (ha : atArrow i = true) :
    j.atOperator "=>" = true := by
  cases h with
  | noPower hp => exact prefixed_stops hp ha
  | power hp ho =>
    rw [atOperator_of_arrow (prefixed_stops hp ha) (by decide)] at ho
    cases ho

theorem ladder_stops {levels : List Operator.Level} (hl : levels ⊆ Operator.levels)
    (h : Reads (.ladder levels) i e j) (ha : atArrow i = true) : j.atOperator "=>" = true := by
  induction levels generalizing e j with
  | nil =>
    cases h with
    | ladderTop hp => exact power_stops hp ha
  | cons level tighter ih =>
    cases h with
    | ladderStep ht hc =>
      have hs := ih (List.subset_of_cons_subset hl) ht
      rw [hc.eq_of_arrow hs (hl List.mem_cons_self)]
      exact hs

/-- Where the test holds, an expression that is no arrow function stops in front of the `=>`. -/
theorem conditional_stops (h : Reads .conditional i e j) (ha : atArrow i = true) :
    j.atOperator "=>" = true := by
  cases h with
  | noConditional ht => exact ladder_stops (List.Subset.refl _) ht ha
  | conditional ht ho =>
    rw [atOperator_of_arrow (ladder_stops (List.Subset.refl _) ht ha) (by decide)] at ho
    cases ho

end

end TemplateExpr
