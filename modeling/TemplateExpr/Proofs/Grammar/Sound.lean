/-
  Productions read what the grammar says: the answer of every production is related to its
  input by the phrase that the production is for, however deep the recursion goes.

  * `sound_rules`: the productions of the recursion.
  * `readsAll_of_program`: the production of whole programs.
-/
import TemplateExpr.Proofs.Grammar.Reads

namespace TemplateExpr.Production

/-- What the production answers is a reading of the phrase. -/
def Sound {k : Kind} (c : Phrase k) (p : Production k.type) : Prop :=
  ∀ ⦃i : Input⦄ ⦃a : k.type⦄ ⦃j : Input⦄, p i = .ok (a, j) → Reads c i a j

/-- The productions of the nested parts are sound. -/
structure SoundRules (rules : Rules) : Prop where
  assignment : Sound .assignment rules.assignment
  power : Sound .power rules.power
  prefixed : Sound .prefixed rules.prefixed
  statement : Sound (.statement true) rules.statement

/-! ## Answers step by step -/

section
variable {ε α β : Type}

theorem bind_eq_ok {x : Except ε α} {f : α → Except ε β} {b : β} (h : (x >>= f) = .ok b) :
    ∃ a, x = .ok a ∧ f a = .ok b := by
  cases x with
  | error e => cases h
  | ok a => exact ⟨a, rfl, h⟩

theorem eq_ok_of_toOption {x : Except ε α} {a : α} (h : x.toOption = some a) : x = .ok a := by
  cases x with
  | error e => cases h
  | ok b => cases h; rfl

theorem exists_eq_ok_of_isOk {x : Except ε α} (h : x.isOk = true) : ∃ a, x = .ok a := by
  cases x with
  | error e => cases h
  | ok a => exact ⟨a, rfl⟩

/-- An answer behind a part of the tree. -/
theorem bind_eq_ok₂ {x : Except ε (α × Input)} {f : α × Input → Except ε β} {b : β}
    (h : (x >>= f) = .ok b) : ∃ a j, x = .ok (a, j) ∧ f (a, j) = .ok b := by
  obtain ⟨⟨a, j⟩, hx, hf⟩ := bind_eq_ok h
  exact ⟨a, j, hx, hf⟩

theorem expectMark_bind_eq_ok {i : Input} {c : Char} {f : Input → Except Failure β} {b : β}
    (h : (i.expectMark c >>= f) = .ok b) : i.atMark c = true ∧ f i.skip = .ok b := by
  unfold Input.expectMark at h
  cases hc : i.atMark c with
  | false => rw [hc] at h; cases h
  | true => rw [hc] at h; exact ⟨rfl, h⟩

theorem expectOperator_bind_eq_ok {i : Input} {symbol : String}
    {f : Input → Except Failure β} {b : β} (h : (i.expectOperator symbol >>= f) = .ok b) :
    i.atOperator symbol = true ∧ f i.skip = .ok b := by
  unfold Input.expectOperator at h
  cases hc : i.atOperator symbol with
  | false => rw [hc] at h; cases h
  | true => rw [hc] at h; exact ⟨rfl, h⟩

theorem expectTarget_bind_eq_ok {target : Expr} {f : Unit → Except Failure β} {b : β}
    (h : (expectTarget target >>= f) = .ok b) : target.isTarget = true ∧ f () = .ok b := by
  unfold expectTarget at h
  cases hc : target.isTarget with
  | false => rw [hc] at h; cases h
  | true => rw [hc] at h; exact ⟨rfl, h⟩

end

/-! ## Series -/

section
variable {k : Kind} {item : Phrase k} {p : Production k.type}

theorem sound_items (hp : Sound item p) (close : Char) (bound : Nat) :
    Sound (.items item close) (items p close bound) := by
  induction bound with
  | zero => intro i as j h; cases h
  | succ bound ih =>
    intro i as j h
    rw [items] at h
    cases hc : i.atMark close with
    | true =>
      rw [hc] at h
      cases h
      exact .itemsClose hc
    | false =>
      rw [hc] at h
      obtain ⟨a, l, ha, h⟩ := bind_eq_ok₂ h
      dsimp only at h
      cases hm : l.atMark ',' with
      | true =>
        rw [hm] at h
        obtain ⟨others, m, ho, h⟩ := bind_eq_ok₂ h
        cases h
        exact .itemsMore hc (hp ha) hm (ih ho)
      | false =>
        rw [hm] at h
        obtain ⟨hl, h⟩ := expectMark_bind_eq_ok h
        cases h
        exact .itemsLast hc (hp ha) hm hl

theorem enclosed_eq_ok (hp : Sound item p) {opening close : Char} {i j : Input}
    {as : List k.type} (h : enclosed p opening close i = .ok (as, j)) :
    i.atMark opening = true ∧ Reads (.items item close) i.skip as j := by
  obtain ⟨ho, h⟩ := expectMark_bind_eq_ok h
  exact ⟨ho, sound_items hp close _ h⟩

end

section
variable {p : Production Expr} (hp : Sound .assignment p)
include hp

theorem sound_others (bound : Nat) : Sound .others (others p bound) := by
  induction bound with
  | zero => intro i es j h; cases h
  | succ bound ih =>
    intro i es j h
    rw [others] at h
    cases hm : i.atMark ',' with
    | true =>
      rw [hm] at h
      obtain ⟨e, l, he, h⟩ := bind_eq_ok₂ h
      obtain ⟨es, m, hes, h⟩ := bind_eq_ok₂ h
      cases h
      exact .othersMore hm (hp he) (ih hes)
    | false =>
      rw [hm] at h
      cases h
      exact .othersNone hm

theorem sound_sequence : Sound .sequence (sequence p) := by
  intro i e j h
  obtain ⟨e, l, he, h⟩ := bind_eq_ok₂ h
  obtain ⟨es, m, hes, h⟩ := bind_eq_ok₂ h
  have hes := sound_others hp _ hes
  cases es with
  | nil => cases h; exact .single (hp he) hes
  | cons e' es => cases h; exact .several (hp he) hes

end

/-! ## Functions -/

section
variable {rules : Rules} (hr : SoundRules rules)
include hr

theorem sound_param : Sound .param (param rules) := by
  intro i p j h
  unfold param at h
  cases ht : i.takeName? with
  | none => rw [ht] at h; cases h
  | some found =>
    obtain ⟨id, l⟩ := found
    rw [ht] at h
    dsimp only at h
    cases ho : l.atOperator "=" with
    | true =>
      rw [ho] at h
      obtain ⟨value, m, hv, h⟩ := bind_eq_ok₂ h
      cases h
      exact .defaultParam ht ho (hr.assignment hv)
    | false =>
      rw [ho] at h
      cases h
      exact .plainParam ht ho

theorem params_eq_ok {i j : Input} {ps : List Param} (h : params rules i = .ok (ps, j)) :
    i.atMark '(' = true ∧ Reads (.items .param ')') i.skip ps j :=
  enclosed_eq_ok (sound_param hr) h

theorem sound_blockStatements (bound : Nat) :
    Sound .blockStatements (blockStatements rules.statement bound) := by
  induction bound with
  | zero => intro i ss j h; cases h
  | succ bound ih =>
    intro i ss j h
    rw [blockStatements] at h
    cases hb : i.atMark '}' with
    | true =>
      rw [hb] at h
      cases h
      exact .bodyEnd hb
    | false =>
      rw [hb] at h
      cases he : i.rest.isEmpty with
      | true => rw [he] at h; cases h
      | false =>
        rw [he] at h
        cases hs : i.atMark ';' with
        | true =>
          rw [hs] at h
          exact .bodyEmpty hs (ih h)
        | false =>
          rw [hs] at h
          obtain ⟨first, l, hf, h⟩ := bind_eq_ok₂ h
          obtain ⟨others, m, ho, h⟩ := bind_eq_ok₂ h
          cases h
          exact .bodyNext hb hs (hr.statement hf) (ih ho)

theorem sound_block : Sound .block (block rules) := by
  intro i b j h
  obtain ⟨hb, h⟩ := expectMark_bind_eq_ok h
  obtain ⟨ss, l, hs, h⟩ := bind_eq_ok₂ h
  cases h
  exact .block hb (sound_blockStatements hr _ hs)

theorem sound_function {declaration : Bool} {i : Input} (hf : i.atKeyword "function" = true)
    {f : Lambda} {j : Input} (h : function rules declaration i = .ok (f, j)) :
    Reads (.function declaration) i f j := by
  unfold function at h
  dsimp only at h
  cases ht : i.skip.takeName? with
  | none =>
    rw [ht] at h
    cases declaration with
    | true => cases h
    | false =>
      obtain ⟨ps, l, hp, h⟩ := bind_eq_ok₂ h
      obtain ⟨b, m, hb, h⟩ := bind_eq_ok₂ h
      cases h
      obtain ⟨ho, hp⟩ := params_eq_ok hr hp
      exact .namelessFunction hf ho hp (sound_block hr hb)
  | some found =>
    obtain ⟨id, i'⟩ := found
    rw [ht] at h
    simp only [Option.isNone_some, Bool.and_false, Bool.false_eq_true, if_false] at h
    obtain ⟨ps, l, hp, h⟩ := bind_eq_ok₂ h
    obtain ⟨b, m, hb, h⟩ := bind_eq_ok₂ h
    cases h
    obtain ⟨ho, hp⟩ := params_eq_ok hr hp
    exact .namedFunction hf ht ho hp (sound_block hr hb)

theorem sound_arrowParams : Sound .arrowParams (arrowParams rules) := by
  intro i ps j h
  unfold arrowParams at h
  cases ho : i.atMark '(' with
  | true =>
    rw [ho] at h
    exact .paramList ho (params_eq_ok hr h).2
  | false =>
    rw [ho] at h
    cases ht : i.takeName? with
    | none => rw [ht] at h; cases h
    | some found =>
      rw [ht] at h
      cases h
      exact .soleParam ht

theorem sound_arrow {i : Input} (ha : atArrow i = true) {e : Expr} {j : Input}
    (h : arrow rules i = .ok (e, j)) : Reads .assignment i e j := by
  obtain ⟨ps, l, hp, h⟩ := bind_eq_ok₂ h
  obtain ⟨ho, h⟩ := expectOperator_bind_eq_ok h
  obtain ⟨b, m, hb, h⟩ := bind_eq_ok₂ h
  have hp := sound_arrowParams hr hp
  cases h
  unfold arrowBody at hb
  cases hm : l.skip.atMark '{' with
  | true =>
    rw [hm] at hb
    exact .blockArrow ha hp ho (sound_block hr hb)
  | false =>
    rw [hm] at hb
    obtain ⟨value, n, hv, hb⟩ := bind_eq_ok₂ hb
    cases hb
    exact .arrow ha hp ho hm (hr.assignment hv)

/-! ## Operands -/

omit hr in
theorem sound_memberName : Sound .memberName memberName := by
  intro i e j h
  obtain ⟨last, rest, stop⟩ := i
  cases rest with
  | nil => cases h
  | cons token rest =>
    obtain ⟨lexeme, raw, newline, span⟩ := token
    cases lexeme with
    | name text => cases h; exact .memberName (.inl rfl)
    | keyword text => cases h; exact .memberName (.inr rfl)
    | _ => cases h

theorem sound_property : Sound .property (property rules) := by
  intro i p j h
  unfold property at h
  dsimp only at h
  cases hc : i.atMark '[' with
  | true =>
    rw [hc] at h
    obtain ⟨key, l, hk, h⟩ := bind_eq_ok₂ h
    obtain ⟨hb, h⟩ := expectMark_bind_eq_ok h
    obtain ⟨hm, h⟩ := expectMark_bind_eq_ok h
    obtain ⟨value, m, hv, h⟩ := bind_eq_ok₂ h
    cases h
    exact .computedProperty hc (hr.assignment hk) hb hm (hr.assignment hv)
  | false =>
    rw [hc] at h
    cases hk : i.rest.head?.bind plainKey? with
    | none => rw [hk] at h; cases h
    | some found =>
      obtain ⟨key, alone⟩ := found
      rw [hk] at h
      simp only [Bool.false_eq_true, if_false] at h
      cases hm : i.skip.atMark ':' with
      | true =>
        rw [hm] at h
        obtain ⟨value, m, hv, h⟩ := bind_eq_ok₂ h
        cases h
        exact .keyedProperty hk hm (hr.assignment hv)
      | false =>
        rw [hm] at h
        cases alone with
        | false => cases h
        | true =>
          cases he : i.skip.atMark ',' || i.skip.atMark '}' with
          | false => rw [he] at h; cases h
          | true =>
            rw [he] at h
            cases h
            exact .shorthand hk he

theorem sound_primary : Sound .primary (primary rules) := by
  intro i e j h
  unfold primary at h
  cases ha : i.rest.head?.bind atom? with
  | some e => rw [ha] at h; cases h; exact .atom ha
  | none =>
    rw [ha] at h
    dsimp only at h
    split at h
    · next hf =>
      obtain ⟨f, l, hl, h⟩ := bind_eq_ok₂ h
      cases h
      exact .functionValue hf (sound_function hr hf hl)
    · split at h
      · next hm =>
        obtain ⟨e, l, he, h⟩ := bind_eq_ok₂ h
        obtain ⟨hc, h⟩ := expectMark_bind_eq_ok h
        cases h
        exact .parens hm (sound_sequence hr.assignment he) hc
      · split at h
        · obtain ⟨es, l, he, h⟩ := bind_eq_ok₂ h
          obtain ⟨hm, he⟩ := enclosed_eq_ok hr.assignment he
          cases h
          exact .array hm he
        · split at h
          · obtain ⟨ps, l, hp, h⟩ := bind_eq_ok₂ h
            obtain ⟨hm, hp⟩ := enclosed_eq_ok (sound_property hr) hp
            cases h
            exact .object hm hp
          · cases h

theorem sound_link (operand : Expr) : Sound (.link operand) (link rules operand) := by
  intro i e j h
  unfold link at h
  split at h
  · next hd =>
    obtain ⟨p, l, hp, h⟩ := bind_eq_ok₂ h
    cases h
    exact .named hd (sound_memberName hp)
  · split at h
    · next ho =>
      split at h
      · obtain ⟨es, l, he, h⟩ := bind_eq_ok₂ h
        obtain ⟨hm, he⟩ := enclosed_eq_ok hr.assignment he
        cases h
        exact .callOptional ho hm he
      · split at h
        · next hm =>
          obtain ⟨p, l, hp, h⟩ := bind_eq_ok₂ h
          obtain ⟨hc, h⟩ := expectMark_bind_eq_ok h
          cases h
          exact .computedOptional ho hm (sound_sequence hr.assignment hp) hc
        · obtain ⟨p, l, hp, h⟩ := bind_eq_ok₂ h
          cases h
          exact .namedOptional ho (sound_memberName hp)
    · split at h
      · next hm =>
        obtain ⟨p, l, hp, h⟩ := bind_eq_ok₂ h
        obtain ⟨hc, h⟩ := expectMark_bind_eq_ok h
        cases h
        exact .computed hm (sound_sequence hr.assignment hp) hc
      · obtain ⟨es, l, he, h⟩ := bind_eq_ok₂ h
        obtain ⟨hm, he⟩ := enclosed_eq_ok hr.assignment he
        cases h
        exact .call hm he

theorem sound_links (bound : Nat) (operand : Expr) :
    Sound (.links operand) (links rules bound operand) := by
  induction bound generalizing operand with
  | zero => intro i e j h; cases h
  | succ bound ih =>
    intro i e j h
    rw [links] at h
    cases hl : atLink i with
    | true =>
      rw [hl] at h
      obtain ⟨o, l, ho, h⟩ := bind_eq_ok₂ h
      exact .linksMore (sound_link hr operand ho) (ih o h)
    | false =>
      rw [hl] at h
      cases h
      exact .linksNone hl

theorem sound_chain : Sound .chain (chain rules) := by
  intro i e j h
  obtain ⟨o, l, ho, h⟩ := bind_eq_ok₂ h
  exact .chain (sound_primary hr ho) (sound_links hr _ o h)

/-! ## Operations -/

theorem sound_postfixed : Sound .postfixed (postfixed rules) := by
  intro i e j h
  obtain ⟨argument, l, ha, h⟩ := bind_eq_ok₂ h
  have ha := sound_chain hr ha
  dsimp only at h
  cases ho : operatorOf? Operator.update l with
  | none => rw [ho] at h; cases h; exact .noTrailing ha (.inl ho)
  | some op =>
    rw [ho] at h
    dsimp only at h
    cases hn : l.atNewline with
    | true => rw [hn] at h; cases h; exact .noTrailing ha (.inr hn)
    | false =>
      rw [hn] at h
      obtain ⟨ht, h⟩ := expectTarget_bind_eq_ok h
      cases h
      exact .trailingUpdate ha ho hn ht

theorem sound_prefixed : Sound .prefixed (prefixed rules) := by
  intro i e j h
  unfold prefixed at h
  dsimp only at h
  cases ho : operatorOf? Operator.update i with
  | some op =>
    rw [ho] at h
    obtain ⟨argument, l, ha, h⟩ := bind_eq_ok₂ h
    obtain ⟨ht, h⟩ := expectTarget_bind_eq_ok h
    cases h
    exact .leadingUpdate ho (hr.prefixed ha) ht
  | none =>
    rw [ho] at h
    dsimp only at h
    cases hu : unaryOf? i with
    | some op =>
      rw [hu] at h
      obtain ⟨argument, l, ha, h⟩ := bind_eq_ok₂ h
      cases h
      exact .unary ho hu (hr.prefixed ha)
    | none =>
      rw [hu] at h
      exact .noPrefix ho hu (sound_postfixed hr h)

theorem sound_power : Sound .power (power rules) := by
  intro i e j h
  obtain ⟨left, l, hl, h⟩ := bind_eq_ok₂ h
  have hl := sound_prefixed hr hl
  dsimp only at h
  cases ho : l.atOperator Operator.power with
  | true =>
    rw [ho] at h
    obtain ⟨right, m, hm, h⟩ := bind_eq_ok₂ h
    cases h
    exact .power hl ho (hr.power hm)
  | false =>
    rw [ho] at h
    cases h
    exact .noPower hl ho

omit hr in
theorem sound_climb {p : Production Expr} {tighter : List Operator.Level}
    (hp : Sound (.ladder tighter) p) (level : Operator.Level) (bound : Nat) (left : Expr) :
    Sound (.climb level tighter left) (climb level p bound left) := by
  induction bound generalizing left with
  | zero => intro i e j h; cases h
  | succ bound ih =>
    intro i e j h
    rw [climb] at h
    cases ho : binaryOf? level.operators i with
    | none => rw [ho] at h; cases h; exact .climbStop ho
    | some op =>
      rw [ho] at h
      obtain ⟨right, l, hl, h⟩ := bind_eq_ok₂ h
      exact .climbMore ho (hp hl) (ih _ h)

theorem sound_ladder (levels : List Operator.Level) :
    Sound (.ladder levels) (ladder (power rules) levels) := by
  induction levels with
  | nil => exact fun i e j h => .ladderTop (sound_power hr h)
  | cons level tighter ih =>
    intro i e j h
    obtain ⟨left, l, hl, h⟩ := bind_eq_ok₂ h
    exact .ladderStep (ih hl) (sound_climb ih level _ left h)

theorem sound_conditional : Sound .conditional (conditional rules) := by
  intro i e j h
  obtain ⟨test, l, ht, h⟩ := bind_eq_ok₂ h
  have ht := sound_ladder hr _ ht
  dsimp only at h
  cases ho : l.atOperator "?" with
  | true =>
    rw [ho] at h
    obtain ⟨consequent, m, hc, h⟩ := bind_eq_ok₂ h
    obtain ⟨hm, h⟩ := expectMark_bind_eq_ok h
    obtain ⟨alternate, n, ha, h⟩ := bind_eq_ok₂ h
    cases h
    exact .conditional ht ho (hr.assignment hc) hm (hr.assignment ha)
  | false =>
    rw [ho] at h
    cases h
    exact .noConditional ht ho

theorem sound_assignment : Sound .assignment (assignment rules) := by
  intro i e j h
  unfold assignment at h
  cases ha : atArrow i with
  | true => rw [ha] at h; exact sound_arrow hr ha h
  | false =>
    rw [ha] at h
    obtain ⟨left, l, hl, h⟩ := bind_eq_ok₂ h
    have hl := sound_conditional hr hl
    dsimp only at h
    cases ho : operatorOf? Operator.assignment l with
    | none => rw [ho] at h; cases h; exact .noAssignment ha hl ho
    | some op =>
      rw [ho] at h
      obtain ⟨ht, h⟩ := expectTarget_bind_eq_ok h
      obtain ⟨right, m, hm, h⟩ := bind_eq_ok₂ h
      cases h
      exact .assignment ha hl ho ht (hr.assignment hm)

/-! ## Statements -/

theorem sound_statement (inBody : Bool) :
    Sound (.statement inBody) (statement rules inBody) := by
  intro i s j h
  unfold statement at h
  cases hf : i.atKeyword "function" with
  | true =>
    rw [hf] at h
    obtain ⟨f, l, hl, h⟩ := bind_eq_ok₂ h
    cases h
    exact .declaration hf (sound_function hr hf hl)
  | false =>
    rw [hf] at h
    cases hk : i.atKeyword "return" with
    | false =>
      rw [hk] at h
      obtain ⟨value, l, hv, h⟩ := bind_eq_ok₂ h
      obtain ⟨m, hm, h⟩ := bind_eq_ok h
      cases h
      exact .expression hf hk (sound_sequence (sound_assignment hr) hv) hm
    | true =>
      rw [hk] at h
      simp only [Bool.false_eq_true, if_false, if_true] at h
      unfold returnStatement at h
      cases inBody with
      | false => cases h
      | true =>
        simp only [Bool.not_true, Bool.false_eq_true, if_false] at h
        split at h
        · next he =>
          obtain ⟨m, hm, h⟩ := bind_eq_ok h
          cases h
          exact .bareReturn hk he hm
        · next he =>
          obtain ⟨value, l, hv, h⟩ := bind_eq_ok₂ h
          obtain ⟨m, hm, h⟩ := bind_eq_ok h
          cases h
          exact .return hk (Bool.eq_false_iff.2 he) (sound_sequence hr.assignment hv) hm

theorem soundRules_deeper : SoundRules (deeper rules) where
  assignment := sound_assignment hr
  power := sound_power hr
  prefixed := sound_prefixed hr
  statement := sound_statement hr true

end

/-! ## The recursion -/

theorem sound_rules (n : Nat) : SoundRules (rules n) := by
  induction n with
  | zero => constructor <;> exact fun i a j h => nomatch h
  | succ n ih => exact soundRules_deeper ih

theorem readsAll_of_programStatements {statement : Production Statement}
    (hs : Sound (.statement false) statement) {bound : Nat} {i j : Input}
    {ss : List Statement} (h : programStatements statement bound i = .ok (ss, j)) :
    ReadsAll i ss := by
  induction bound generalizing i ss with
  | zero => cases h
  | succ bound ih =>
    rw [programStatements] at h
    cases he : i.rest.isEmpty with
    | true => rw [he] at h; cases h; exact .done (List.isEmpty_iff.1 he)
    | false =>
      rw [he] at h
      cases hm : i.atMark ';' with
      | true => rw [hm] at h; exact .empty hm (ih h)
      | false =>
        rw [hm] at h
        obtain ⟨first, l, hf, h⟩ := bind_eq_ok₂ h
        obtain ⟨others, m, ho, h⟩ := bind_eq_ok₂ h
        cases h
        exact .next hm (hs hf) (ih ho)

theorem readsAll_of_program {i j : Input} {ss : List Statement}
    (h : program i = .ok (ss, j)) : ReadsAll i ss :=
  readsAll_of_programStatements (sound_statement (sound_rules i.left) false) h

end TemplateExpr.Production
