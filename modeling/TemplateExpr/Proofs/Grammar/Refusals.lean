/-
  Why a text is refused. A production that fails has reached its failure over tokens that are no
  faults: it points at the next token, which it could not take, or at something that was read, a
  target that cannot be assigned to or a `return` outside of functions. The bound on the recursion
  is never used up.

  * `Reads.passes`: a phrase takes no fault.
  * `accounts_rules`: every production of the recursion accounts for its failures.
  * `refused_of_program`: so does the production of whole programs.
-/
import TemplateExpr.Proofs.Grammar.Sound

namespace TemplateExpr
open Production

/-! ## Tokens that are no faults -/

namespace Input

/-- The tokens between the two inputs are no faults. -/
def Passes (i j : Input) : Prop :=
  ∃ taken, i.rest = taken ++ j.rest ∧ ∀ token ∈ taken, token.lexeme.isFault = false

variable {i j l : Input}

theorem Passes.refl (i : Input) : i.Passes i :=
  ⟨[], rfl, List.forall_mem_nil _⟩

theorem Passes.trans (h : i.Passes j) (h' : j.Passes l) : i.Passes l := by
  obtain ⟨front, hf, hn⟩ := h
  obtain ⟨back, hb, hn'⟩ := h'
  exact ⟨front ++ back, by rw [hf, hb, List.append_assoc], List.forall_mem_append.2 ⟨hn, hn'⟩⟩

theorem passes_skip {lexeme : Lexeme} (h : i.lexeme? = some lexeme)
    (hf : lexeme.isFault = false) : i.Passes i.skip := by
  obtain ⟨token, rest, hr, rfl⟩ := lexeme?_eq_some_iff.1 h
  refine ⟨[token], ?_, List.forall_mem_singleton.2 hf⟩
  rw [skip, hr]
  rfl

theorem passes_of_atMark {c : Char} (h : i.atMark c = true) : i.Passes i.skip :=
  passes_skip (atMark_iff.1 h) rfl

theorem passes_of_atOperator {symbol : String} (h : i.atOperator symbol = true) :
    i.Passes i.skip :=
  passes_skip (atOperator_iff.1 h) rfl

theorem passes_of_atKeyword {word : String} (h : i.atKeyword word = true) : i.Passes i.skip :=
  passes_skip (atKeyword_iff.1 h) rfl

theorem passes_of_takeName? {id : Identifier} (h : i.takeName? = some (id, j)) :
    i.Passes j := by
  obtain ⟨text, hl, -, rfl⟩ := takeName?_eq_some_iff.1 h
  exact passes_skip hl rfl

theorem passes_of_plainKey? {found : Expr × Bool}
    (h : i.rest.head?.bind plainKey? = some found) : i.Passes i.skip := by
  obtain ⟨⟨lexeme, raw, newline, span⟩, rest, hr, ht⟩ := head?_bind_eq_some_iff.1 h
  refine passes_skip (lexeme?_eq_some_iff.2 ⟨_, rest, hr, rfl⟩) ?_
  cases lexeme with
  | fault => cases ht
  | _ => rfl

theorem passes_of_atom? {e : Expr} (h : i.rest.head?.bind atom? = some e) :
    i.Passes i.skip := by
  obtain ⟨token, rest, hr, ht⟩ := head?_bind_eq_some_iff.1 h
  refine passes_skip (lexeme?_eq_some_iff.2 ⟨_, rest, hr, rfl⟩) ?_
  cases atomOf_of_atom? ht <;> rfl

end Input

namespace Production
open Input

variable {i j : Input} {op : String}

theorem passes_of_word {text : String}
    (h : i.lexeme? = some (.name text) ∨ i.lexeme? = some (.keyword text)) :
    i.Passes i.skip := by
  obtain h | h := h <;> exact passes_skip h rfl

theorem passes_of_operatorOf? {operators : List String} (h : operatorOf? operators i = some op) :
    i.Passes i.skip :=
  passes_skip (operatorOf?_eq_some_iff.1 h).1 rfl

theorem passes_of_binaryOf? {operators : List String} (h : binaryOf? operators i = some op) :
    i.Passes i.skip := by
  obtain ⟨h | h, -⟩ := binaryOf?_eq_some_iff.1 h <;> exact passes_skip h rfl

theorem passes_of_unaryOf? (h : unaryOf? i = some op) : i.Passes i.skip := by
  obtain ⟨h, -⟩ | ⟨h, -⟩ := unaryOf?_eq_some_iff.1 h <;> exact passes_skip h rfl

theorem passes_of_statementEnd {inBody : Bool} (h : statementEnd inBody i = .ok j) :
    i.Passes j := by
  obtain ⟨hm, rfl⟩ | ⟨-, rfl, -⟩ := statementEnd_eq_ok h
  · exact passes_of_atMark hm
  · exact .refl _

end Production

/-- A phrase takes no fault. -/
theorem Reads.passes {k : Kind} {c : Phrase k} {i j : Input} {a : k.type} (h : Reads c i a j) :
    i.Passes j := by
  induction h with
  | _ => grind -ring -linarith [Input.Passes.refl, → Input.Passes.trans, → Input.passes_of_atMark,
      → Input.passes_of_atOperator, → Input.passes_of_atKeyword, → Input.passes_of_takeName?,
      → Input.passes_of_plainKey?, → Input.passes_of_atom?, → passes_of_word,
      → passes_of_operatorOf?, → passes_of_binaryOf?, → passes_of_unaryOf?,
      → passes_of_statementEnd]

/-! ## Failures -/

/-- Why a production fails at the input, and where. -/
inductive Refused (i : Input) : Failure → Prop
  /-- The next token does not fit. -/
  | next {j} : i.Passes j → Refused i j.refusal
  /-- What was read in front of an assignment or update cannot be assigned to. -/
  | target {c : Phrase .expr} {j e l} :
    c ∈ [.chain, .prefixed, .conditional] → i.Passes j → Reads c j e l → e.isTarget = false →
    Refused i (.fault .notAssignable e.span.start)
  /-- A `return` stands outside of functions. -/
  | stray {j} :
    i.Passes j → j.atKeyword "return" = true → Refused i (.fault .strayReturn j.here.start)

theorem Refused.behind {i j : Input} {failure : Failure} (h : i.Passes j)
    (hr : Refused j failure) : Refused i failure := by
  cases hr with
  | next hj => exact .next (h.trans hj)
  | target hc hj he ht => exact .target hc (h.trans hj) he ht
  | stray hj hk => exact .stray (h.trans hj) hk

namespace Production
open Input

/-- If it is a failure, it is one of a production at the input. -/
def Accounted {β : Type} (i : Input) (x : Except Failure β) : Prop :=
  ∀ failure, x = .error failure → Refused i failure

/-- The production accounts for its failures at inputs of fewer tokens than the bound. -/
def Accounts {α : Type} (bound : Nat) (p : Production α) : Prop :=
  ∀ ⦃i : Input⦄, i.left < bound → Accounted i (p i)

/-- The productions of the nested parts account for their failures. -/
structure AccountsRules (bound : Nat) (rules : Rules) : Prop where
  assignment : Accounts bound rules.assignment
  power : Accounts bound rules.power
  prefixed : Accounts bound rules.prefixed
  statement : Accounts bound rules.statement

section
variable {β : Type} {i j : Input} {k : Kind} {c : Phrase k} {p : Production k.type}

theorem accounted_ok (b : β) : Accounted i (.ok b) :=
  fun _ h => nomatch h

theorem accounted_refusal (i : Input) : Accounted i (.error i.refusal : Except Failure β) := by
  intro failure h
  cases h
  exact .next (.refl i)

theorem Accounted.behind {x : Except Failure β} (hx : Accounted j x) (h : i.Passes j) :
    Accounted i x :=
  fun failure hf => (hx failure hf).behind h

theorem Accounted.bind {α : Type} {x : Except Failure α} {f : α → Except Failure β}
    (hx : Accounted i x) (hf : ∀ a, x = .ok a → Accounted i (f a)) : Accounted i (x >>= f) := by
  cases x with
  | error failure =>
    intro _ h
    cases h
    exact hx _ rfl
  | ok a => exact hf a rfl

/-- A part of the tree is read, and then what stands behind it. -/
theorem Accounted.read {f : k.type × Input → Except Failure β} (hs : Sound c p)
    (hp : Accounted i (p i)) (hf : ∀ a j, Reads c i a j → Accounted j (f (a, j))) :
    Accounted i (p i >>= f) :=
  hp.bind fun (a, j) ha => (hf a j (hs ha)).behind (hs ha).passes

theorem Accounted.mark {mark : Char} {f : Input → Except Failure β}
    (hf : i.atMark mark = true → Accounted i.skip (f i.skip)) :
    Accounted i (i.expectMark mark >>= f) := by
  unfold Input.expectMark
  cases hm : i.atMark mark with
  | false => exact accounted_refusal i
  | true => exact (hf hm).behind (passes_of_atMark hm)

theorem Accounted.operator {symbol : String} {f : Input → Except Failure β}
    (hf : i.atOperator symbol = true → Accounted i.skip (f i.skip)) :
    Accounted i (i.expectOperator symbol >>= f) := by
  unfold Input.expectOperator
  cases ho : i.atOperator symbol with
  | false => exact accounted_refusal i
  | true => exact (hf ho).behind (passes_of_atOperator ho)

/-- An operand that is read is assigned to. -/
theorem Accounted.target {l : Input} {operand : Phrase .expr} {e : Expr}
    {f : Unit → Except Failure β} (hc : operand ∈ [.chain, .prefixed, .conditional])
    (h : i.Passes j) (hr : Reads operand j e l) (hf : Accounted i (f ())) :
    Accounted i (expectTarget e >>= f) := by
  unfold expectTarget
  cases ht : e.isTarget with
  | true => exact hf
  | false =>
    intro failure hfail
    cases hfail
    exact .target hc h hr ht

theorem Accounts.mono {α : Type} {p : Production α} {m n : Nat} (hp : Accounts n p)
    (h : m ≤ n) : Accounts m p :=
  fun _ hi => hp (Nat.lt_of_lt_of_le hi h)

/-! ### Series -/

theorem accounts_items (hs : Sound c p) (hc : c.mayBeEmpty = false) {n : Nat}
    (hp : Accounts n p) (close : Char) (bound : Nat) {i : Input} (hn : i.left < n)
    (hb : i.left < bound) : Accounted i (items p close bound i) := by
  induction bound generalizing i with
  | zero => exact absurd hb (Nat.not_lt_zero _)
  | succ bound ih =>
    rw [items]
    cases i.atMark close with
    | true => exact accounted_ok _
    | false =>
      refine .read hs (hp hn) fun first j hr => ?_
      have hl := (hr.consumes hc).2
      dsimp only
      split
      · next hm =>
        have hl' := (consumes_of_atMark hm).2
        exact ((ih (by omega) (by omega)).bind fun _ _ => accounted_ok _).behind
          (passes_of_atMark hm)
      · exact .mark fun _ => accounted_ok _

theorem accounts_enclosed (hs : Sound c p) (hc : c.mayBeEmpty = false) {n : Nat}
    (hp : Accounts n p) (opening close : Char) :
    Accounts (n + 1) (enclosed p opening close) := by
  intro i hn
  refine .mark fun hm => ?_
  have hl := (consumes_of_atMark hm).2
  exact accounts_items hs hc hp close _ (by omega) (Nat.lt_succ_self _)

end

section
variable {p : Production Expr} {n : Nat} (hs : Sound .assignment p) (hp : Accounts n p)
include hs hp

theorem accounts_others (bound : Nat) {i : Input} (hn : i.left < n) (hb : i.left < bound) :
    Accounted i (others p bound i) := by
  induction bound generalizing i with
  | zero => exact absurd hb (Nat.not_lt_zero _)
  | succ bound ih =>
    rw [others]
    split
    · next hm =>
      have hl := (consumes_of_atMark hm).2
      refine Accounted.behind (.read hs (hp (by omega)) fun next j hr => ?_) (passes_of_atMark hm)
      have hl' := hr.left_le
      exact (ih (by omega) (by omega)).bind fun _ _ => accounted_ok _
    · exact accounted_ok _

theorem accounts_sequence : Accounts n (sequence p) := by
  intro i hn
  refine .read hs (hp hn) fun first j hr => ?_
  have hl := hr.left_le
  refine (accounts_others hs hp _ (by omega) (Nat.lt_succ_self _)).bind fun (more, l) _ => ?_
  cases more <;> exact accounted_ok _

end

/-! ### Functions -/

section
variable {rules : Rules} {n : Nat} (hr : SoundRules rules) (hp : AccountsRules n rules)
include hr hp

/-- Behind a token the nested parts have enough of their bound left. -/
theorem accounted_assignment {i : Input} {β : Type} {f : Expr × Input → Except Failure β}
    (hi : i.left < n) (hf : ∀ e j, Reads .assignment i e j → Accounted j (f (e, j))) :
    Accounted i (rules.assignment i >>= f) :=
  .read hr.assignment (hp.assignment hi) hf

theorem accounts_param : Accounts (n + 1) (param rules) := by
  intro i hi
  unfold param
  cases ht : i.takeName? with
  | none => exact accounted_refusal i
  | some found =>
    obtain ⟨id, j⟩ := found
    have hl := (consumes_of_takeName? ht).2
    dsimp only
    split
    · next ho =>
      have hl' := (consumes_of_atOperator ho).2
      have hpass := (passes_of_takeName? ht).trans (passes_of_atOperator ho)
      refine Accounted.behind ?_ hpass
      exact accounted_assignment hr hp (by omega) fun value l _ => accounted_ok _
    · exact accounted_ok _

theorem accounts_params : Accounts (n + 1) (params rules) :=
  (accounts_enclosed (sound_param hr) rfl (accounts_param hr hp) '(' ')').mono (Nat.le_succ _)

theorem accounts_blockStatements (bound : Nat) {i : Input} (hn : i.left < n)
    (hb : i.left < bound) : Accounted i (blockStatements rules.statement bound i) := by
  induction bound generalizing i with
  | zero => exact absurd hb (Nat.not_lt_zero _)
  | succ bound ih =>
    rw [blockStatements]
    split
    · exact accounted_ok _
    · split
      · exact accounted_refusal i
      · split
        · next hs =>
          have hl := (consumes_of_atMark hs).2
          exact (ih (by omega) (by omega)).behind (passes_of_atMark hs)
        · refine .read hr.statement (hp.statement hn) fun first j hf => ?_
          have hl := (hf.consumes rfl).2
          exact (ih (by omega) (by omega)).bind fun _ _ => accounted_ok _

theorem accounts_block : Accounts (n + 1) (block rules) := by
  intro i hi
  refine .mark fun hb => ?_
  have hl := (consumes_of_atMark hb).2
  exact (accounts_blockStatements hr hp _ (by omega) (Nat.lt_succ_self _)).bind
    fun _ _ => accounted_ok _

/-- The parameters and the block of a function. -/
theorem accounted_lambda (id : Option Identifier) (start : Source.Span) {i : Input}
    (hi : i.left < n + 1) :
    Accounted i (params rules i >>= fun x => block rules x.2 >>= fun y =>
      .ok (Lambda.mk id x.1 y.1 (y.2.spanFrom start), y.2)) := by
  refine (accounts_params hr hp hi).bind fun (ps, j) hps => ?_
  obtain ⟨ho, hps⟩ := params_eq_ok hr hps
  have hl := (consumes_of_atMark ho).2
  have hl' := hps.left_le
  refine Accounted.behind ?_ ((passes_of_atMark ho).trans hps.passes)
  exact .read (sound_block hr) (accounts_block hr hp (by omega)) fun _ _ _ => accounted_ok _

theorem accounts_function {declaration : Bool} {i : Input} (hi : i.left < n + 1)
    (hf : i.atKeyword "function" = true) : Accounted i (function rules declaration i) := by
  have hl := (consumes_of_atKeyword hf).2
  unfold function
  dsimp only
  refine Accounted.behind ?_ (passes_of_atKeyword hf)
  cases ht : i.skip.takeName? with
  | none =>
    dsimp only
    split
    · exact accounted_refusal _
    · exact accounted_lambda hr hp _ _ (by omega)
  | some found =>
    obtain ⟨id, j⟩ := found
    have hl' := (consumes_of_takeName? ht).2
    simp only [Option.isNone_some, Bool.and_false, Bool.false_eq_true, if_false]
    refine Accounted.behind ?_ (passes_of_takeName? ht)
    exact accounted_lambda hr hp _ _ (by omega)

theorem accounts_arrowParams : Accounts (n + 1) (arrowParams rules) := by
  intro i hi
  unfold arrowParams
  split
  · exact accounts_params hr hp hi
  · cases i.takeName? with
    | none => exact accounted_refusal i
    | some found => exact accounted_ok _

theorem accounts_arrowBody : Accounts n (arrowBody rules) := by
  intro i hi
  unfold arrowBody
  split
  · exact accounts_block hr hp (by omega)
  · exact accounted_assignment hr hp hi fun _ _ _ => accounted_ok _

theorem accounts_arrow : Accounts (n + 1) (arrow rules) := by
  intro i hi
  refine .read (sound_arrowParams hr) (accounts_arrowParams hr hp hi) fun ps j hps => ?_
  have hl := hps.left_le
  refine .operator fun ho => ?_
  have hl' := (consumes_of_atOperator ho).2
  exact (accounts_arrowBody hr hp (by omega)).bind fun _ _ => accounted_ok _

/-! ### Operands -/

omit hr hp in
theorem accounted_memberName (i : Input) : Accounted i (memberName i) := by
  unfold memberName
  split
  · exact accounted_ok _
  · exact accounted_ok _
  · exact accounted_refusal i

theorem accounts_property : Accounts (n + 1) (property rules) := by
  intro i hi
  unfold property
  dsimp only
  split
  · next hc =>
    have hl := (consumes_of_atMark hc).2
    refine Accounted.behind ?_ (passes_of_atMark hc)
    refine accounted_assignment hr hp (by omega) fun key j hk => ?_
    have hl' := hk.left_le
    refine .mark fun hb => ?_
    have hlb := (consumes_of_atMark hb).2
    refine .mark fun hm => ?_
    have hlm := (consumes_of_atMark hm).2
    exact accounted_assignment hr hp (by omega) fun value l _ => accounted_ok _
  · cases hk : i.rest.head?.bind plainKey? with
    | none => exact accounted_refusal i
    | some found =>
      obtain ⟨key, alone⟩ := found
      have hl := (consumes_of_bind hk).2
      dsimp only
      refine Accounted.behind ?_ (passes_of_plainKey? hk)
      split
      · next hm =>
        have hl' := (consumes_of_atMark hm).2
        refine Accounted.behind ?_ (passes_of_atMark hm)
        exact accounted_assignment hr hp (by omega) fun value l _ => accounted_ok _
      · split
        · exact accounted_ok _
        · exact accounted_refusal _

theorem accounts_primary : Accounts (n + 1) (primary rules) := by
  intro i hi
  unfold primary
  cases ha : i.rest.head?.bind atom? with
  | some e => exact accounted_ok _
  | none =>
    dsimp only
    split
    · next hf => exact (accounts_function hr hp hi hf).bind fun _ _ => accounted_ok _
    · split
      · next hm =>
        have hl := (consumes_of_atMark hm).2
        refine Accounted.behind ?_ (passes_of_atMark hm)
        refine .read (sound_sequence hr.assignment)
          (accounts_sequence hr.assignment hp.assignment (by omega)) fun e j he => ?_
        exact .mark fun _ => accounted_ok _
      · split
        · exact (accounts_enclosed hr.assignment rfl hp.assignment '[' ']' hi).bind
            fun _ _ => accounted_ok _
        · split
          · exact (accounts_enclosed (sound_property hr) rfl (accounts_property hr hp) '{' '}'
              (by omega)).bind fun _ _ => accounted_ok _
          · exact accounted_refusal i

theorem accounts_computedMember (object : Expr) (optional : Bool) :
    Accounts n (computedMember rules object optional) := by
  intro i hi
  refine .read (sound_sequence hr.assignment)
    (accounts_sequence hr.assignment hp.assignment hi) fun e j he => ?_
  exact .mark fun _ => accounted_ok _

omit hr hp in
theorem accounted_namedMember (object : Expr) (optional : Bool) (i : Input) :
    Accounted i (namedMember object optional i) :=
  (accounted_memberName i).bind fun _ _ => accounted_ok _

theorem accounts_call (callee : Expr) (optional : Bool) :
    Accounts (n + 1) (call rules callee optional) := fun _ hi =>
  (accounts_enclosed hr.assignment rfl hp.assignment '(' ')' hi).bind fun _ _ => accounted_ok _

theorem accounts_link (operand : Expr) : Accounts (n + 1) (link rules operand) := by
  intro i hi
  unfold link
  split
  · next hd => exact (accounted_namedMember operand false _).behind (passes_of_atMark hd)
  · split
    · next ho =>
      have hl := (consumes_of_atOperator ho).2
      refine Accounted.behind ?_ (passes_of_atOperator ho)
      split
      · exact accounts_call hr hp operand true (by omega)
      · split
        · next hm =>
          have hl' := (consumes_of_atMark hm).2
          exact (accounts_computedMember hr hp operand true (by omega)).behind
            (passes_of_atMark hm)
        · exact accounted_namedMember operand true _
    · split
      · next hm =>
        have hl := (consumes_of_atMark hm).2
        exact (accounts_computedMember hr hp operand false (by omega)).behind
          (passes_of_atMark hm)
      · exact accounts_call hr hp operand false hi

theorem accounts_links (bound : Nat) (operand : Expr) {i : Input} (hn : i.left < n + 1)
    (hb : i.left < bound) : Accounted i (links rules bound operand i) := by
  induction bound generalizing operand i with
  | zero => exact absurd hb (Nat.not_lt_zero _)
  | succ bound ih =>
    rw [links]
    split
    · refine .read (sound_link hr operand) (accounts_link hr hp operand hn) fun o j ho => ?_
      have hl := (ho.consumes rfl).2
      exact ih o (by omega) (by omega)
    · exact accounted_ok _

theorem accounts_chain : Accounts (n + 1) (chain rules) := by
  intro i hi
  refine .read (sound_primary hr) (accounts_primary hr hp hi) fun o j ho => ?_
  have hl := ho.left_le
  exact accounts_links hr hp _ o (by omega) (Nat.lt_succ_self _)

/-! ### Operations -/

theorem accounts_postfixed : Accounts (n + 1) (postfixed rules) := by
  intro i hi
  refine (accounts_chain hr hp hi).bind fun (argument, j) ha => ?_
  have ha := sound_chain hr ha
  dsimp only
  cases operatorOf? Operator.update j with
  | none => exact accounted_ok _
  | some op =>
    dsimp only
    split
    · exact accounted_ok _
    · exact .target (by simp) (.refl i) ha (accounted_ok _)

theorem accounts_prefixed : Accounts (n + 1) (prefixed rules) := by
  intro i hi
  unfold prefixed
  dsimp only
  cases ho : operatorOf? Operator.update i with
  | some op =>
    have hl := (consumes_of_operatorOf? ho).2
    refine Accounted.behind ?_ (passes_of_operatorOf? ho)
    refine (hp.prefixed (by omega)).bind fun (argument, j) ha => ?_
    exact .target (by simp) (.refl _) (hr.prefixed ha) (accounted_ok _)
  | none =>
    dsimp only
    cases hu : unaryOf? i with
    | some op =>
      have hl := (consumes_of_unaryOf? hu).2
      refine Accounted.behind ?_ (passes_of_unaryOf? hu)
      exact (hp.prefixed (by omega)).bind fun _ _ => accounted_ok _
    | none => exact accounts_postfixed hr hp hi

theorem accounts_power : Accounts (n + 1) (power rules) := by
  intro i hi
  refine .read (sound_prefixed hr) (accounts_prefixed hr hp hi) fun left j hl => ?_
  have hl := hl.left_le
  dsimp only
  split
  · next ho =>
    have hl' := (consumes_of_atOperator ho).2
    refine Accounted.behind ?_ (passes_of_atOperator ho)
    exact (hp.power (by omega)).bind fun _ _ => accounted_ok _
  · exact accounted_ok _

omit hr hp in
theorem accounts_climb {p : Production Expr} {tighter : List Operator.Level}
    (hs : Sound (.ladder tighter) p) (hp : Accounts n p) (level : Operator.Level) (bound : Nat)
    (left : Expr) {i : Input} (hn : i.left < n) (hb : i.left < bound) :
    Accounted i (climb level p bound left i) := by
  induction bound generalizing left i with
  | zero => exact absurd hb (Nat.not_lt_zero _)
  | succ bound ih =>
    rw [climb]
    cases ho : binaryOf? level.operators i with
    | none => exact accounted_ok _
    | some op =>
      have hl := (consumes_of_binaryOf? ho).2
      refine Accounted.behind ?_ (passes_of_binaryOf? ho)
      refine .read hs (hp (by omega)) fun right j hr => ?_
      have hl' := hr.left_le
      exact ih _ (by omega) (by omega)

theorem accounts_ladder (levels : List Operator.Level) :
    Accounts (n + 1) (ladder (power rules) levels) := by
  induction levels with
  | nil => exact accounts_power hr hp
  | cons level tighter ih =>
    intro i hi
    refine .read (sound_ladder hr tighter) (ih hi) fun left j hl => ?_
    have hl := hl.left_le
    exact accounts_climb (sound_ladder hr tighter) ih level _ left (by omega)
      (Nat.lt_succ_self _)

theorem accounts_conditional : Accounts (n + 1) (conditional rules) := by
  intro i hi
  refine .read (sound_ladder hr _) (accounts_ladder hr hp _ hi) fun test j ht => ?_
  have hl := ht.left_le
  dsimp only
  split
  · next ho =>
    have hlo := (consumes_of_atOperator ho).2
    refine Accounted.behind ?_ (passes_of_atOperator ho)
    refine accounted_assignment hr hp (by omega) fun consequent l hc => ?_
    have hlc := hc.left_le
    refine .mark fun hm => ?_
    have hlm := (consumes_of_atMark hm).2
    exact accounted_assignment hr hp (by omega) fun _ _ _ => accounted_ok _
  · exact accounted_ok _

theorem accounts_assignment : Accounts (n + 1) (assignment rules) := by
  intro i hi
  unfold assignment
  split
  · exact accounts_arrow hr hp hi
  · refine (accounts_conditional hr hp hi).bind fun (left, j) hl => ?_
    have hl := sound_conditional hr hl
    have hlj := hl.left_le
    dsimp only
    cases ho : operatorOf? Operator.assignment j with
    | none => exact accounted_ok _
    | some op =>
      have hlo := (consumes_of_operatorOf? ho).2
      refine .target (by simp) (.refl i) hl ?_
      refine Accounted.behind ?_ (hl.passes.trans (passes_of_operatorOf? ho))
      exact accounted_assignment hr hp (by omega) fun _ _ _ => accounted_ok _

/-! ### Statements -/

omit hr hp in
theorem accounted_statementEnd (inBody : Bool) (i : Input) :
    Accounted i (statementEnd inBody i) := by
  unfold statementEnd
  split
  · exact accounted_ok _
  · split
    · exact accounted_ok _
    · exact accounted_refusal i

omit hr hp in
/-- What was read ends a statement, if the statement ends there. -/
theorem accounted_end {inBody : Bool} {i : Input} {β : Type} (f : Input → β) :
    Accounted i (statementEnd inBody i >>= fun j => .ok (f j)) :=
  (accounted_statementEnd inBody i).bind fun _ _ => accounted_ok _

theorem accounts_expressionStatement (inBody : Bool) :
    Accounts (n + 1) (expressionStatement rules inBody) := by
  intro i hi
  refine .read (sound_sequence (sound_assignment hr))
    (accounts_sequence (sound_assignment hr) (accounts_assignment hr hp) hi) fun value j _ => ?_
  exact accounted_end _

theorem accounts_returnStatement (inBody : Bool) {i : Input} (hi : i.left < n + 1)
    (hk : i.atKeyword "return" = true) : Accounted i (returnStatement rules inBody i) := by
  have hl := (consumes_of_atKeyword hk).2
  unfold returnStatement
  dsimp only
  split
  · intro failure hf
    cases hf
    exact .stray (.refl i) hk
  · refine Accounted.behind ?_ (passes_of_atKeyword hk)
    split
    · exact accounted_end _
    · refine .read (sound_sequence hr.assignment)
        (accounts_sequence hr.assignment hp.assignment (by omega)) fun value j _ => ?_
      exact accounted_end _

theorem accounts_statement (inBody : Bool) : Accounts (n + 1) (statement rules inBody) := by
  intro i hi
  unfold statement
  split
  · next hf => exact (accounts_function hr hp hi hf).bind fun _ _ => accounted_ok _
  · split
    · next hk => exact accounts_returnStatement hr hp inBody hi hk
    · exact accounts_expressionStatement hr hp inBody hi

theorem accountsRules_deeper : AccountsRules (n + 1) (deeper rules) where
  assignment := accounts_assignment hr hp
  power := accounts_power hr hp
  prefixed := accounts_prefixed hr hp
  statement := accounts_statement hr hp true

end

/-! ### The recursion -/

/-- With a bound above the number of tokens, every failure is accounted for. -/
theorem accounts_rules (n : Nat) : AccountsRules n (rules n) := by
  induction n with
  | zero => constructor <;> exact fun i hi => absurd hi (Nat.not_lt_zero _)
  | succ n ih => exact accountsRules_deeper (sound_rules n) ih

theorem accounted_programStatements {statement : Production Statement} {n : Nat}
    (hs : Sound (.statement false) statement) (hp : Accounts n statement) (bound : Nat)
    {i : Input} (hn : i.left < n) (hb : i.left < bound) :
    Accounted i (programStatements statement bound i) := by
  induction bound generalizing i with
  | zero => exact absurd hb (Nat.not_lt_zero _)
  | succ bound ih =>
    rw [programStatements]
    split
    · exact accounted_ok _
    · split
      · next hm =>
        have hl := (consumes_of_atMark hm).2
        exact (ih (by omega) (by omega)).behind (passes_of_atMark hm)
      · refine .read hs (hp hn) fun first j hf => ?_
        have hl := (hf.consumes rfl).2
        exact (ih (by omega) (by omega)).bind fun _ _ => accounted_ok _

/-- A program that cannot be read is refused somewhere in its tokens. -/
theorem refused_of_program {i : Input} {failure : Failure} (h : program i = .error failure) :
    Refused i failure :=
  accounted_programStatements (sound_statement (sound_rules i.left) false)
    (accounts_statement (sound_rules i.left) (accounts_rules i.left) false) _
    (Nat.lt_succ_self _) (Nat.lt_succ_self _) failure h

end Production

end TemplateExpr
