/-
  The parser makes progress and ends, whatever the tokens are.

  A call is measured by how many tokens are left and, after that, by how far up in the grammar
  its procedure is. Whatever it calls has a smaller measure: behind a token fewer are left, and
  at the same tokens only procedures further down are called. So the answers follow by
  induction on the measure: the bounds on the recursion and on the loops decide nothing, and an
  answer is a part of the tree or a fault of the text.

  * `Procedure.keeps`: what the script of each procedure calls is smaller than the procedure.
  * `Call.settled`: what the answer of every call is.
  * `parser_progresses`: the productions advance, the chains of calls descend and the parser ends.
-/
import Mathlib.Data.Prod.Lex
import TemplateExpr.Proofs.Grammar.Calls
import TemplateExpr.Proofs.Grammar.Sound

namespace TemplateExpr
open Production

/-! ## The measure of a call -/

/-- How far up in the grammar a phrase is. -/
def Phrase.level {k : Kind} : Phrase k → Nat
  -- What these call stands behind a token of their own.
  | .memberName | .param | .property | .block | .others | .climb _ _ _ => 0
  | .function _ | .arrowParams | .link _ => 1
  | .primary | .links _ => 2
  | .chain => 3
  | .postfixed => 4
  | .prefixed => 5
  | .power => 6
  | .ladder levels => 7 + levels.length
  | .conditional => 8 + Operator.levels.length
  | .assignment => 9 + Operator.levels.length
  | .sequence => 10 + Operator.levels.length
  | .statement _ => 11 + Operator.levels.length
  | .blockStatements => 12 + Operator.levels.length
  | .items item _ => item.level + 1

def Procedure.level {k : Kind} : Procedure k → Nat
  | .phrase c => c.level
  | .enclosed _ _ _ | .returned _ => 0
  | .arrow => 2
  | .program => 12 + Operator.levels.length

/-- How many tokens are left for a call, and how far up in the grammar it is. -/
def Call.measure (c : Call) : Nat ×ₗ Nat :=
  toLex (c.input.left, c.procedure.level)

theorem Call.measure_lt_iff {c d : Call} :
    c.measure < d.measure ↔
      c.input.left < d.input.left ∨
        c.input.left = d.input.left ∧ c.procedure.level < d.procedure.level :=
  Prod.Lex.toLex_lt_toLex

/-! ## What a script keeps to -/

/-- How far a procedure gets when it succeeds. -/
def Procedure.Leads {k : Kind} : Procedure k → Input → Input → Prop
  | .phrase c, i, j => if c.mayBeEmpty then i.Leaves j else i.Consumes j
  | .arrow, i, j | .enclosed _ _ _, i, j => i.Consumes j
  | .returned _, i, j => i.skip.Leaves j
  | .program, i, j => i.Leaves j ∧ j.rest = []

/-- The answer keeps to `post`, or it is a fault of the text. -/
def Settles {α : Type} (post : α → Prop) : Except Failure α → Prop
  | .ok a => post a
  | .error failure => failure ≠ .exhausted

theorem Settles.of_ok {α : Type} {post : α → Prop} {x : Except Failure α} {a : α}
    (h : Settles post x) (hx : x = .ok a) : post a := by
  rw [hx] at h
  exact h

theorem Settles.of_error {α : Type} {post : α → Prop} {x : Except Failure α}
    {failure : Failure} (h : Settles post x) (hx : x = .error failure) :
    failure ≠ .exhausted := by
  rw [hx] at h
  exact h

/-- The script is for the call `outer`: its calls are smaller, by a token at least when they are
    made in depth or as the next turn of a loop. Its answer keeps to `post`, if those of its
    calls get as far as their procedures do. -/
def Script.Keeps {α : Type} (outer : Call) (post : α → Prop) : Script α → Prop
  | .done answer => Settles post answer
  | .call manner c next =>
    c.measure < outer.measure ∧ (manner = .direct ∨ c.input.left < outer.input.left) ∧
      ∀ a j, c.procedure.Leads c.input j → (next (a, j)).Keeps outer post

@[simp] theorem Input.refusal_ne_exhausted (i : Input) : i.refusal ≠ .exhausted := by
  unfold Input.refusal
  cases i.rest with
  | nil => simp
  | cons token rest => cases token with | mk lexeme => cases lexeme <;> simp

section
variable {α β : Type} {outer : Call} {post : α → Prop} {i : Input}

theorem settles_statementEnd (inBody : Bool) (i : Input) :
    Settles (fun j => i.Leaves j) (statementEnd inBody i) := by
  cases h : statementEnd inBody i with
  | ok j => exact leaves_of_statementEnd h
  | error failure =>
    unfold statementEnd at h
    grind [Settles, Input.refusal_ne_exhausted]

theorem settles_memberName (i : Input) :
    Settles (fun x => i.Consumes x.2) (Production.memberName i) := by
  cases h : Production.memberName i with
  | ok x => exact (sound_memberName h).consumes rfl
  | error failure =>
    unfold Production.memberName at h
    grind [Settles, Input.refusal_ne_exhausted]

namespace Script

theorem keeps_ite {p : Prop} [Decidable p] {x y : Script α} :
    (if p then x else y).Keeps outer post ↔
      (p → x.Keeps outer post) ∧ (¬p → y.Keeps outer post) := by
  split <;> simp [*]

theorem keeps_pure {a : α} : (pure a : Script α).Keeps outer post ↔ post a :=
  Iff.rfl

theorem pure_bind (a : α) (f : α → Script β) : ((pure a : Script α) >>= f) = f a :=
  rfl

theorem call_bind (manner : Manner) (c : Call) (next : c.kind.type × Input → Script α)
    (f : α → Script β) :
    (call manner c next >>= f) = call manner c fun x => next x >>= f :=
  rfl

/-- A test of the input that is no call. -/
theorem keeps_liftM_bind {x : Except Failure β} {f : β → Script α}
    (hx : x ≠ .error .exhausted) :
    ((liftM x : Script β) >>= f).Keeps outer post ↔
      ∀ b, x = .ok b → (f b).Keeps outer post := by
  cases x with
  | error failure =>
    exact iff_of_true (fun h => hx (congrArg Except.error h)) fun b h => nomatch h
  | ok b => exact ⟨fun h b' hb => Except.ok.inj hb ▸ h, fun h => h b rfl⟩

theorem keeps_expectMark {c : Char} {f : Input → Script α} :
    ((liftM (i.expectMark c) : Script Input) >>= f).Keeps outer post ↔
      (i.atMark c = true → (f i.skip).Keeps outer post) := by
  rw [keeps_liftM_bind] <;> unfold Input.expectMark <;> split <;> simp [*]

theorem keeps_expectOperator {symbol : String} {f : Input → Script α} :
    ((liftM (i.expectOperator symbol) : Script Input) >>= f).Keeps outer post ↔
      (i.atOperator symbol = true → (f i.skip).Keeps outer post) := by
  rw [keeps_liftM_bind] <;> unfold Input.expectOperator <;> split <;> simp [*]

theorem keeps_expectTarget {target : Expr} {f : Unit → Script α} :
    ((liftM (expectTarget target) : Script Unit) >>= f).Keeps outer post ↔
      (target.isTarget = true → (f ()).Keeps outer post) := by
  rw [keeps_liftM_bind] <;> unfold expectTarget <;> split <;> simp [*, Unique.forall_iff]

theorem keeps_statementEnd {inBody : Bool} {f : Input → Script α} :
    ((liftM (statementEnd inBody i) : Script Input) >>= f).Keeps outer post ↔
      ∀ j, statementEnd inBody i = .ok j → (f j).Keeps outer post :=
  keeps_liftM_bind fun h => (settles_statementEnd inBody i).of_error h rfl

end Script

end

/-! ## Bodies keep to their procedures -/

section
open Input (Leaves Consumes)

namespace Input
variable {i j : Input}

theorem Consumes.left_lt (h : i.Consumes j) : j.left < i.left :=
  h.2

theorem Consumes.leaves (h : i.Consumes j) : i.Leaves j :=
  h.1

theorem consumes_of_skip (h : i.skip.Consumes j) : i.Consumes j :=
  i.leaves_skip.consumes h

theorem consumes_of_rest_skip (h : i.skip.rest ≠ []) : i.Consumes i.skip := by
  obtain ⟨last, rest, stop⟩ := i
  cases rest with
  | nil => exact absurd rfl h
  | cons token rest => exact consumes_skip (lexeme?_eq_some_iff.2 ⟨token, rest, rfl, rfl⟩)

end Input

attribute [local simp] Procedure.body Script.ask Settles Script.Keeps Script.keeps_pure
  Script.keeps_ite Script.call_bind Script.pure_bind Script.keeps_expectMark
  Script.keeps_expectOperator Script.keeps_expectTarget Script.keeps_statementEnd
  Call.measure_lt_iff Procedure.Leads Procedure.level Phrase.level Phrase.mayBeEmpty

attribute [local grind →] Leaves.left_le Consumes.left_lt Consumes.leaves Leaves.trans
  Consumes.trans Leaves.consumes Input.consumes_of_skip Input.consumes_of_atMark
  Input.consumes_of_atOperator Input.consumes_of_atKeyword Input.consumes_of_takeName?
  Input.consumes_of_bind consumes_of_operatorOf? consumes_of_binaryOf? consumes_of_unaryOf?
  leaves_of_statementEnd
attribute [local grind .] Leaves.refl Input.leaves_skip
attribute [local grind =] Input.left_skip

/-- The calls of a procedure are smaller than the procedure, and it gets as far as it should. The
    simplifier goes through the script and leaves what its calls and its ends require; that is
    settled by the order of the inputs. -/
theorem Procedure.keeps {k : Kind} (c : Procedure k) (i : Input) :
    (c.body i).Keeps ⟨c, i⟩ fun x => c.Leads i x.2 := by
  cases c with
  | enclosed | program | arrow => simp; grind
  | returned inBody =>
    -- The value is behind the keyword only if the keyword was there.
    have hs : i.skip.rest ≠ [] → i.Consumes i.skip := Input.consumes_of_rest_skip
    simp; grind
  | phrase c =>
    cases c with
    | items | others | blockStatements | block => simp; grind
    | link | links | chain | power | conditional | statement => simp; grind
    | memberName => exact settles_memberName i
    -- The next token decides what is called.
    | param =>
      cases ht : i.takeName? with
      | none => simp [ht]
      | some name => simp [ht]; grind
    | arrowParams =>
      cases ht : i.takeName? with
      | none => simp [ht]
      | some name => simp [ht]; grind
    | function =>
      cases ht : i.skip.takeName? with
      | none => simp [ht]; grind
      | some name => simp [ht]; grind
    | property =>
      cases hk : i.rest.head?.bind plainKey? with
      | none => simp [hk]; grind
      | some key => simp [hk]; grind
    | primary =>
      cases ha : i.rest.head?.bind atom? with
      | none => simp [ha]; grind
      | some e => simp [ha]; grind
    | prefixed =>
      cases ho : operatorOf? Operator.update i with
      | some op => simp [ho]; grind
      | none => cases hu : unaryOf? i <;> simp [ho, hu]; grind
    | climb level tighter left =>
      cases ho : binaryOf? level.operators i with
      | none => simp [ho]; grind
      | some op => simp [ho]; grind
    | ladder levels =>
      cases levels with
      | nil => simp
      | cons level tighter => simp; grind
    -- The token behind the first operand decides how it goes on.
    | sequence =>
      simp
      intro first j hj
      refine ⟨by grind, fun more l hl => ?_⟩
      cases more with
      | nil => simp; grind
      | cons e es => simp; grind
    | postfixed =>
      simp
      intro argument j hj
      cases ho : operatorOf? Operator.update j with
      | none => simpa using hj
      | some op => simp; grind
    | assignment =>
      simp
      refine ⟨fun _ => by omega, fun _ left j hj => ?_⟩
      cases ho : operatorOf? Operator.assignment j with
      | none => simpa using hj
      | some op => simp; grind

end

/-! ## Answers -/

/-- The answer of a call is that of its script, and it gets as far as its procedure should.
    Recursion deeper than the number of tokens and more turns of a loop give no other answer. -/
structure Call.Settled (c : Call) : Prop where
  produce_eq : ∀ n turns, c.input.left ≤ n → c.input.left < turns →
    c.procedure.produce n turns c.input = c.answer
  answer_eq : c.answer = (c.procedure.body c.input).eval
  settles : Settles (fun x => c.procedure.Leads c.input x.2) c.answer

namespace Script
variable {α : Type} {outer : Call} {post : α → Prop} {s : Script α}

/-- The bounds that are left decide nothing about the calls of a script, so none about the
    script. -/
theorem Keeps.run_eq_eval (hs : s.Keeps outer post)
    (ih : ∀ c : Call, c.measure < outer.measure → c.Settled) {n turns : Nat}
    (hn : outer.input.left ≤ n) (ht : outer.input.left ≤ turns) :
    s.run n turns = s.eval := by
  induction s with
  | done answer => rfl
  | call manner c next ihs =>
    obtain ⟨hc, hm, hnext⟩ := hs
    have hle : c.input.left ≤ outer.input.left := by
      obtain h | ⟨h, -⟩ := Call.measure_lt_iff.1 hc <;> omega
    have made : c.made n turns manner = c.answer := by
      cases manner with
      | direct => exact (ih c hc).produce_eq n _ (by omega) (by omega)
      | nested =>
        have hlt := hm.resolve_left nofun
        obtain ⟨m, rfl⟩ := Nat.exists_eq_add_of_lt (Nat.lt_of_lt_of_le hlt hn)
        exact (ih c hc).produce_eq _ _ (Nat.le_add_right _ m) (Nat.lt_succ_self _)
      | again =>
        have hlt := hm.resolve_left nofun
        exact (ih c hc).produce_eq n turns (by omega) (by omega)
    rw [run_call, made, eval]
    cases h : c.answer with
    | error failure => rfl
    | ok x => exact ihs x (hnext x.1 x.2 ((ih c hc).settles.of_ok h))

theorem Keeps.settles_eval (hs : s.Keeps outer post)
    (ih : ∀ c : Call, c.measure < outer.measure → c.Settled) : Settles post s.eval := by
  induction s with
  | done answer => exact hs
  | call manner c next ihs =>
    obtain ⟨hc, -, hnext⟩ := hs
    rw [eval]
    cases h : c.answer with
    | error failure => exact (ih c hc).settles.of_error h
    | ok x => exact ihs x (hnext x.1 x.2 ((ih c hc).settles.of_ok h))

end Script

/-- By induction on the measure of the call. -/
theorem Call.settled (c : Call) : c.Settled := by
  induction c using (InvImage.wf Call.measure wellFounded_lt).induction with
  | _ c ih =>
    have hk := c.procedure.keeps c.input
    have heval : ∀ n turns, c.input.left ≤ n → c.input.left < turns →
        c.procedure.produce n turns c.input = (c.procedure.body c.input).eval := by
      intro n turns hn ht
      obtain ⟨more, rfl⟩ := Nat.exists_eq_add_of_lt ht
      rw [Procedure.produce_eq_run _ hn]
      exact hk.run_eq_eval ih hn (Nat.le_add_right _ _)
    have hanswer : c.answer = (c.procedure.body c.input).eval :=
      heval _ _ (Nat.le_refl _) (Nat.lt_succ_self _)
    refine ⟨fun n turns hn ht => (heval n turns hn ht).trans hanswer.symm, hanswer, ?_⟩
    rw [hanswer]
    exact hk.settles_eval ih

/-! ## Chains of calls -/

/-- A call makes another one while it is answered. -/
def Call.Nests (outer inner : Call) : Prop :=
  (outer.procedure.body outer.input).Makes inner

theorem Script.Keeps.measure_lt {α : Type} {outer inner : Call} {post : α → Prop}
    {s : Script α} (hs : s.Keeps outer post) (h : s.Makes inner) :
    inner.measure < outer.measure := by
  induction h with
  | now => exact hs.1
  | @later manner c next x inner hx _ ih =>
    exact ih (hs.2.2 x.1 x.2 (c.settled.settles.of_ok hx))

theorem Call.Nests.measure_lt {outer inner : Call} (h : outer.Nests inner) :
    inner.measure < outer.measure :=
  (outer.procedure.keeps outer.input).measure_lt h

theorem wellFounded_nests : WellFounded fun inner outer : Call => outer.Nests inner :=
  Subrelation.wf Call.Nests.measure_lt (InvImage.wf Call.measure wellFounded_lt)

theorem measure_lt_of_transGen {outer inner : Call}
    (h : Relation.TransGen Call.Nests outer inner) : inner.measure < outer.measure := by
  induction h with
  | single h => exact h.measure_lt
  | tail _ h ih => exact h.measure_lt.trans ih

/-! ## Progress -/

/-- Wherever the production succeeds in a list of tokens, it has moved on, and not past the
    end. -/
def Advances {α : Type} (p : Production α) : Prop :=
  ∀ (tokens : List Token) (index : Nat) (i j : Input) (a : α), index ≤ tokens.length →
    i.rest = tokens.drop index → p i = .ok (a, j) →
    ∃ index', index < index' ∧ index' ≤ tokens.length ∧ j.rest = tokens.drop index'

theorem advances_of_consumes {α : Type} {p : Production α}
    (h : ∀ i a j, p i = .ok (a, j) → i.Consumes j) : Advances p := by
  intro tokens index i j a hindex hi hp
  obtain ⟨hleaves, hleft⟩ := h i a j hp
  have hsuffix : j.rest <:+ tokens :=
    List.IsSuffix.trans hleaves (hi ▸ List.drop_suffix index tokens)
  have hlength : i.left = tokens.length - index := by rw [Input.left, hi, List.length_drop]
  refine ⟨tokens.length - j.left, by omega, Nat.sub_le _ _, ?_⟩
  exact List.suffix_iff_eq_drop.1 hsuffix

theorem Production.Sound.advances {k : Kind} {c : Phrase k} {p : Production k.type}
    (h : Sound c p) (hc : c.mayBeEmpty = false) : Advances p :=
  advances_of_consumes fun _ _ _ hp => (h hp).consumes hc

theorem advances_enclosed {k : Kind} {item : Phrase k} {p : Production k.type}
    (h : Sound item p) (opening close : Char) : Advances (enclosed p opening close) :=
  advances_of_consumes fun _ _ _ hp => by
    obtain ⟨ho, hr⟩ := enclosed_eq_ok h hp
    exact (Input.consumes_of_atMark ho).trans hr.leaves

/-- The productions move on, however deep they may recurse. -/
structure ProductionsAdvance (rules : Rules) : Prop where
  statement : ∀ inBody, Advances (Production.statement rules inBody)
  expression : Advances (Production.sequence (Production.assignment rules))
  assignment : Advances (Production.assignment rules)
  primary : Advances (Production.primary rules)
  property : Advances (Production.property rules)
  params : Advances (Production.params rules)
  arguments : Advances (enclosed rules.assignment '(' ')')
  block : Advances (Production.block rules)

theorem productionsAdvance_rules (n : Nat) : ProductionsAdvance (rules n) :=
  have h := sound_rules n
  { statement := fun inBody => (sound_statement h inBody).advances rfl
    expression := (sound_sequence (sound_assignment h)).advances rfl
    assignment := (sound_assignment h).advances rfl
    primary := (sound_primary h).advances rfl
    property := (sound_property h).advances rfl
    params := advances_enclosed (sound_param h) '(' ')'
    arguments := advances_enclosed h.assignment '(' ')'
    block := (sound_block h).advances rfl }

/-- The parser makes progress and ends. Wherever a production succeeds it has moved on; the
    answers are those of the scripts, and no bound on the recursion or the loops is ever used up;
    along every chain of calls the tokens that are left and the level in the grammar decrease, so
    no chain goes on for ever; and a list of tokens is a program, or it has a fault. -/
theorem parser_progresses :
    (∀ n, ProductionsAdvance (rules n)) ∧
    (∀ c : Call, c.Settled) ∧
    (∀ outer inner : Call, Relation.TransGen Call.Nests outer inner →
      inner.measure < outer.measure) ∧
    (WellFounded fun inner outer : Call => outer.Nests inner) ∧
    ∀ tokens stop,
      (∃ ss j, program (Input.ofTokens tokens stop) = .ok (ss, j) ∧ j.rest = []) ∨
        ∃ why place, program (Input.ofTokens tokens stop) = .error (.fault why place) := by
  refine ⟨productionsAdvance_rules, Call.settled, fun _ _ => measure_lt_of_transGen,
    wellFounded_nests, fun tokens stop => ?_⟩
  have h := (Call.settled ⟨.program, Input.ofTokens tokens stop⟩).settles
  change Settles _ (program (Input.ofTokens tokens stop)) at h
  cases hp : program (Input.ofTokens tokens stop) with
  | ok x => exact .inl ⟨x.1, x.2, rfl, (h.of_ok hp).2⟩
  | error failure =>
    cases failure with
    | fault why place => exact .inr ⟨why, place, rfl⟩
    | exhausted => exact absurd rfl (h.of_error hp)

/-- A name and a parenthesis that nothing closes. -/
theorem parser_progresses_unclosed :
    let tokens : List Token :=
      [⟨.name "f", "f", false, default⟩, ⟨.mark '(', "(", false, default⟩]
    let i := Input.ofTokens tokens default
    (∃ index', 0 < index' ∧ index' ≤ 2 ∧ i.skip.rest = tokens.drop index') ∧
    Call.measure ⟨.phrase .primary, i⟩ < Call.measure ⟨.phrase .chain, i⟩ ∧
    ∃ why place, program i = .error (.fault why place) := by
  intro tokens i
  obtain ⟨advance, -, descend, -, ends⟩ := parser_progresses
  refine ⟨(advance 0).primary tokens 0 i i.skip _ (by decide) rfl rfl,
    descend _ _ (.single .now), ?_⟩
  obtain ⟨ss, j, h, -⟩ | h := ends tokens default
  · exact nomatch h
  · exact h

end TemplateExpr
