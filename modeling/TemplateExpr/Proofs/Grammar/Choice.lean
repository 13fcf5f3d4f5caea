/-
  The test for an arrow function loses nothing. `programBy choice` is the grammar in which
  `choice` decides where an arrow function is read; the program of the language is the one in
  which `atArrow` decides. Whatever else decides, a program that is read is the one that the
  language reads.

  An expression that is read against the test stops in front of a `=>`, and what is around it
  fails there. So of every production one of two things is kept: the answer (`Kept`), or the
  answer unless it stops in front of a `=>` (`KeptOrStops`).

  * `keptOrStops_assignment`: where the decision is made.
  * `keptRules_rulesBy`: the productions of the recursion.
  * `Production.atArrow_decides`: the test against the productions, all in all.
-/
import TemplateExpr.Proofs.Grammar.Lookahead
import TemplateExpr.Proofs.Grammar.Sound
import TemplateExpr.Syntax.OfText

namespace TemplateExpr.Production
open Input (atMark_eq_of_atOperator)

/-! ## Grammars by their choice -/

section
variable (choice : Input → Bool)

/-- An arrow function where it is chosen, and else a conditional or an assignment to one. -/
def assignmentBy (rules : Rules) : Production Expr := fun i =>
  if choice i then arrow rules i
  else do
    let (left, i) ← conditional rules i
    match operatorOf? Operator.assignment i with
    | some op =>
      expectTarget left
      let (right, i) ← rules.assignment i.skip
      .ok (.assignment op left right (left.span.to right.span), i)
    | none => .ok (left, i)

def expressionStatementBy (rules : Rules) (inBody : Bool) : Production Statement := fun i => do
  let start := i.here
  let (value, i) ← sequence (assignmentBy choice rules) i
  let i ← statementEnd inBody i
  .ok (.expression value (i.spanFrom start), i)

def statementBy (rules : Rules) (inBody : Bool) : Production Statement := fun i =>
  if i.atKeyword "function" then do
    let (lambda, i) ← function rules true i
    .ok (.declaration lambda, i)
  else if i.atKeyword "return" then returnStatement rules inBody i
  else expressionStatementBy choice rules inBody i

def deeperBy (rules : Rules) : Rules where
  assignment := assignmentBy choice rules
  power := power rules
  prefixed := prefixed rules
  statement := statementBy choice rules true

def rulesBy : Nat → Rules
  | 0 => Rules.exhausted
  | n + 1 => deeperBy choice (rulesBy n)

def programBy : Production (List Statement) := fun i =>
  programStatements (statementBy choice (rulesBy choice i.left) false) (i.left + 1) i

end

theorem rulesBy_atArrow (n : Nat) : rulesBy atArrow n = rules n := by
  induction n with
  | zero => rfl
  | succ n ih => rw [rulesBy, ih]; rfl

/-- The test decides in the language itself. -/
theorem programBy_atArrow : programBy atArrow = program := by
  funext i
  rw [programBy, rulesBy_atArrow]
  rfl

/-! ## What is kept -/

section
variable {α β : Type}

/-- The answer of the first is that of the second. -/
def Kept (x y : Except Failure (α × Input)) : Prop :=
  ∀ a j, x = .ok (a, j) → y = .ok (a, j)

/-- The answer of the first is that of the second, or stops in front of a `=>`. -/
def KeptOrStops (x y : Except Failure (α × Input)) : Prop :=
  ∀ a j, x = .ok (a, j) → y = .ok (a, j) ∨ j.atOperator "=>" = true

/-- If there is an answer, it stops in front of a `=>`. -/
def Stops (x : Except Failure (α × Input)) : Prop :=
  ∀ a j, x = .ok (a, j) → j.atOperator "=>" = true

/-- There is no answer. -/
def Fails (x : Except Failure (α × Input)) : Prop :=
  ∀ a j, x ≠ .ok (a, j)

variable {x y : Except Failure (α × Input)} {f g : α × Input → Except Failure (β × Input)}

theorem Kept.refl (x : Except Failure (α × Input)) : Kept x x :=
  fun _ _ h => h

theorem Kept.orStops (h : Kept x y) : KeptOrStops x y :=
  fun a j ha => .inl (h a j ha)

theorem Stops.kept (h : Stops x) : KeptOrStops x y :=
  fun a j ha => .inr (h a j ha)

theorem Fails.stops (h : Fails x) : Stops x :=
  fun a j ha => absurd ha (h a j)

theorem Fails.kept (h : Fails x) : Kept x y :=
  fun a j ha => absurd ha (h a j)

theorem fails_error (failure : Failure) : Fails (.error failure : Except Failure (α × Input)) :=
  fun _ _ h => nomatch h

theorem stops_ok {a : α} {j : Input} (h : j.atOperator "=>" = true) :
    Stops (.ok (a, j) : Except Failure (α × Input)) := by
  intro b l hb
  cases hb
  exact h

theorem Kept.bind (h : Kept x y) (hf : ∀ a j, Kept (f (a, j)) (g (a, j))) :
    Kept (x >>= f) (y >>= g) := by
  intro b l hb
  obtain ⟨a, j, ha, hb⟩ := bind_eq_ok₂ hb
  rw [h a j ha]
  exact hf a j b l hb

theorem Kept.bindOrStops (h : Kept x y) (hf : ∀ a j, KeptOrStops (f (a, j)) (g (a, j))) :
    KeptOrStops (x >>= f) (y >>= g) := by
  intro b l hb
  obtain ⟨a, j, ha, hb⟩ := bind_eq_ok₂ hb
  rw [h a j ha]
  exact hf a j b l hb

/-- What follows fails in front of a `=>`. -/
theorem KeptOrStops.bind (h : KeptOrStops x y) (hf : ∀ a j, Kept (f (a, j)) (g (a, j)))
    (hs : ∀ a j, j.atOperator "=>" = true → Fails (f (a, j))) : Kept (x >>= f) (y >>= g) := by
  intro b l hb
  obtain ⟨a, j, ha, hb⟩ := bind_eq_ok₂ hb
  obtain hy | hj := h a j ha
  · rw [hy]
    exact hf a j b l hb
  · exact absurd hb (hs a j hj b l)

/-- What follows stops in front of a `=>`. -/
theorem KeptOrStops.bindOrStops (h : KeptOrStops x y)
    (hf : ∀ a j, KeptOrStops (f (a, j)) (g (a, j)))
    (hs : ∀ a j, j.atOperator "=>" = true → Stops (f (a, j))) :
    KeptOrStops (x >>= f) (y >>= g) := by
  intro b l hb
  obtain ⟨a, j, ha, hb⟩ := bind_eq_ok₂ hb
  obtain hy | hj := h a j ha
  · rw [hy]
    exact hf a j b l hb
  · exact .inr (hs a j hj b l hb)

theorem Kept.map (h : Kept x y) (f : α × Input → β) :
    Kept (x >>= fun r => .ok (f r, r.2)) (y >>= fun r => .ok (f r, r.2)) :=
  h.bind fun _ _ => .refl _

theorem KeptOrStops.map (h : KeptOrStops x y) (f : α × Input → β) :
    KeptOrStops (x >>= fun r => .ok (f r, r.2)) (y >>= fun r => .ok (f r, r.2)) :=
  h.bindOrStops (fun _ _ => (Kept.refl _).orStops) fun _ _ hj => stops_ok hj

theorem Kept.mark {i : Input} {mark : Char} {f g : Input → Except Failure (β × Input)}
    (h : Kept (f i.skip) (g i.skip)) :
    Kept (i.expectMark mark >>= f) (i.expectMark mark >>= g) := by
  unfold Input.expectMark
  cases i.atMark mark with
  | false => exact (fails_error _).kept
  | true => exact h

theorem KeptOrStops.mark {i : Input} {mark : Char} {f g : Input → Except Failure (β × Input)}
    (h : KeptOrStops (f i.skip) (g i.skip)) :
    KeptOrStops (i.expectMark mark >>= f) (i.expectMark mark >>= g) := by
  unfold Input.expectMark
  cases i.atMark mark with
  | false => exact (fails_error _).kept.orStops
  | true => exact h

theorem Stops.bind (h : Stops x)
    (hf : ∀ a j, j.atOperator "=>" = true → Stops (f (a, j))) : Stops (x >>= f) := by
  intro b l hb
  obtain ⟨a, j, ha, hb⟩ := bind_eq_ok₂ hb
  exact hf a j (h a j ha) b l hb

theorem Fails.bind (h : Fails x) (f : α × Input → Except Failure (β × Input)) :
    Fails (x >>= f) := by
  intro b l hb
  obtain ⟨a, j, ha, -⟩ := bind_eq_ok₂ hb
  exact h a j ha

theorem fails_mark {i : Input} (h : i.atOperator "=>" = true) (mark : Char)
    (f : Input → Except Failure (β × Input)) : Fails (i.expectMark mark >>= f) := by
  rw [expectMark_refuses h]
  exact fails_error _

end

/-! ## Series -/

section
variable {α : Type} {p q : Production α} (h : ∀ i, KeptOrStops (p i) (q i))
include h

theorem kept_items (close : Char) (bound : Nat) (i : Input) :
    Kept (items p close bound i) (items q close bound i) := by
  induction bound generalizing i with
  | zero => exact .refl _
  | succ bound ih =>
    rw [items, items]
    cases i.atMark close with
    | true => exact .refl _
    | false =>
      refine (h i).bind (fun first j => ?_) fun first j hj => ?_
      · dsimp only
        split
        · exact (ih j.skip).bind fun _ _ => .refl _
        · exact .refl _
      · dsimp only
        rw [atMark_eq_of_atOperator hj]
        exact fails_mark hj close _

theorem kept_enclosed (opening close : Char) (i : Input) :
    Kept (enclosed p opening close i) (enclosed q opening close i) :=
  .mark (kept_items h close _ _)

end

/-- In front of a `=>` no more items are read. -/
theorem stops_others (p : Production Expr) (bound : Nat) {i : Input}
    (h : i.atOperator "=>" = true) : Stops (others p bound i) := by
  cases bound with
  | zero => exact fun _ _ ha => nomatch ha
  | succ bound =>
    rw [others_stays h]
    exact stops_ok h

section
variable {p q : Production Expr} (h : ∀ i, KeptOrStops (p i) (q i))
include h

theorem kept_others (bound : Nat) (i : Input) :
    KeptOrStops (others p bound i) (others q bound i) := by
  induction bound generalizing i with
  | zero => exact (Kept.refl _).orStops
  | succ bound ih =>
    rw [others, others]
    split
    · refine (h i.skip).bindOrStops (fun next j => ?_) fun next j hj => ?_
      · exact (ih j).bindOrStops (fun _ _ => (Kept.refl _).orStops) fun _ _ hl => stops_ok hl
      · exact (stops_others p bound hj).bind fun _ _ hl => stops_ok hl
    · exact (Kept.refl _).orStops

theorem kept_sequence (i : Input) : KeptOrStops (sequence p i) (sequence q i) := by
  have stops : ∀ first more l, Input.atOperator l "=>" = true →
      Stops (match more with
        | [] => .ok (first, l)
        | _ :: _ => .ok (.sequence (first :: more) (l.spanFrom first.span), l) :
          Except Failure (Expr × Input)) := by
    intro first more l hl
    cases more <;> exact stops_ok hl
  refine (h i).bindOrStops (fun first j => ?_) fun first j hj => ?_
  · exact (kept_others h _ j).bindOrStops (fun _ _ => (Kept.refl _).orStops) (stops first)
  · exact (stops_others p _ hj).bind (stops first)

end

/-! ## Functions -/

/-- In front of a `=>` a body does not go on. -/
theorem fails_blockStatements {statement : Production Statement} {i : Input}
    (h : i.atOperator "=>" = true) (hs : Fails (statement i)) (bound : Nat) :
    Fails (blockStatements statement bound i) := by
  cases bound with
  | zero => exact fails_error _
  | succ bound =>
    rw [blockStatements, atMark_eq_of_atOperator h, isEmpty_of_arrow h,
      atMark_eq_of_atOperator h]
    exact hs.bind _

/-- The productions of the nested parts keep what they read. -/
structure KeptRules (rules rules' : Rules) : Prop where
  assignment : ∀ i, KeptOrStops (rules.assignment i) (rules'.assignment i)
  power : ∀ i, Kept (rules.power i) (rules'.power i)
  prefixed : ∀ i, Kept (rules.prefixed i) (rules'.prefixed i)
  statement : ∀ i, KeptOrStops (rules.statement i) (rules'.statement i)
  refuses : ∀ i, i.atOperator "=>" = true → Fails (rules.statement i)

section
variable {rules rules' : Rules} (h : KeptRules rules rules')
include h

theorem kept_param (i : Input) : KeptOrStops (param rules i) (param rules' i) := by
  unfold param
  cases i.takeName? with
  | none => exact (Kept.refl _).orStops
  | some found =>
    dsimp only
    split
    · exact (h.assignment _).map _
    · exact (Kept.refl _).orStops

theorem kept_params (i : Input) : Kept (params rules i) (params rules' i) :=
  kept_enclosed (kept_param h) '(' ')' i

theorem kept_blockStatements (bound : Nat) (i : Input) :
    Kept (blockStatements rules.statement bound i) (blockStatements rules'.statement bound i) := by
  induction bound generalizing i with
  | zero => exact .refl _
  | succ bound ih =>
    rw [blockStatements, blockStatements]
    split
    · exact .refl _
    · split
      · exact .refl _
      · split
        · exact ih _
        · refine (h.statement i).bind (fun first j => ?_) fun first j hj => ?_
          · exact (ih j).bind fun _ _ => .refl _
          · exact (fails_blockStatements hj (h.refuses j hj) bound).bind _

theorem kept_block (i : Input) : Kept (block rules i) (block rules' i) :=
  .mark ((kept_blockStatements h _ _).map _)

/-- The parameters and the block of a function. -/
theorem kept_lambda (id : Option Identifier) (start : Source.Span) (i : Input) :
    Kept (params rules i >>= fun x => block rules x.2 >>= fun y =>
        .ok (Lambda.mk id x.1 y.1 (y.2.spanFrom start), y.2))
      (params rules' i >>= fun x => block rules' x.2 >>= fun y =>
        .ok (Lambda.mk id x.1 y.1 (y.2.spanFrom start), y.2)) :=
  (kept_params h i).bind fun _ j => (kept_block h j).map _

theorem kept_function (declaration : Bool) (i : Input) :
    Kept (function rules declaration i) (function rules' declaration i) := by
  unfold function
  dsimp only
  cases i.skip.takeName? with
  | none =>
    dsimp only
    split
    · exact .refl _
    · exact kept_lambda h none _ _
  | some found =>
    dsimp only
    split
    · exact .refl _
    · exact kept_lambda h (some found.1) _ _

theorem kept_arrowParams (i : Input) : Kept (arrowParams rules i) (arrowParams rules' i) := by
  unfold arrowParams
  split
  · exact kept_params h i
  · exact .refl _

theorem kept_arrowBody (i : Input) : KeptOrStops (arrowBody rules i) (arrowBody rules' i) := by
  unfold arrowBody
  split
  · exact (kept_block h i).orStops
  · exact (h.assignment i).map _

theorem kept_arrow (i : Input) : KeptOrStops (arrow rules i) (arrow rules' i) := by
  refine (kept_arrowParams h i).bindOrStops fun ps j => ?_
  unfold Input.expectOperator
  dsimp only
  split
  · exact (kept_arrowBody h _).map _
  · exact (Kept.refl _).orStops

/-! ## Operands -/

theorem kept_property (i : Input) : KeptOrStops (property rules i) (property rules' i) := by
  unfold property
  dsimp only
  split
  · refine (h.assignment _).bindOrStops (fun key j => ?_) fun key j hj => ?_
    · exact .mark (.mark ((h.assignment _).map _))
    · exact (fails_mark hj ']' _).stops
  · split
    · exact (Kept.refl _).orStops
    · split
      · exact (h.assignment _).map _
      · exact (Kept.refl _).orStops

theorem kept_primary (i : Input) : Kept (primary rules i) (primary rules' i) := by
  unfold primary
  split
  · exact .refl _
  · split
    · exact (kept_function h false i).map _
    · split
      · refine (kept_sequence h.assignment _).bind (fun e j => ?_) fun e j hj => ?_
        · exact .refl _
        · exact fails_mark hj ')' _
      · split
        · exact (kept_enclosed h.assignment '[' ']' i).map _
        · split
          · exact (kept_enclosed (kept_property h) '{' '}' i).map _
          · exact .refl _

theorem kept_computedMember (object : Expr) (optional : Bool) (i : Input) :
    Kept (computedMember rules object optional i) (computedMember rules' object optional i) :=
  (kept_sequence h.assignment i).bind (fun _ _ => .refl _) fun _ _ hj => fails_mark hj ']' _

theorem kept_call (callee : Expr) (optional : Bool) (i : Input) :
    Kept (call rules callee optional i) (call rules' callee optional i) :=
  (kept_enclosed h.assignment '(' ')' i).map _

theorem kept_link (operand : Expr) (i : Input) :
    Kept (link rules operand i) (link rules' operand i) := by
  unfold link
  split
  · exact .refl _
  · split
    · split
      · exact kept_call h operand true _
      · split
        · exact kept_computedMember h operand true _
        · exact .refl _
    · split
      · exact kept_computedMember h operand false _
      · exact kept_call h operand false i

theorem kept_links (bound : Nat) (operand : Expr) (i : Input) :
    Kept (links rules bound operand i) (links rules' bound operand i) := by
  induction bound generalizing operand i with
  | zero => exact .refl _
  | succ bound ih =>
    rw [links, links]
    split
    · exact (kept_link h operand i).bind fun o j => ih o j
    · exact .refl _

theorem kept_chain (i : Input) : Kept (chain rules i) (chain rules' i) :=
  (kept_primary h i).bind fun o j => kept_links h _ o j

/-! ## Operations -/

theorem kept_postfixed (i : Input) : Kept (postfixed rules i) (postfixed rules' i) :=
  (kept_chain h i).bind fun _ _ => .refl _

theorem kept_prefixed (i : Input) : Kept (prefixed rules i) (prefixed rules' i) := by
  unfold prefixed
  dsimp only
  split
  · exact (h.prefixed _).bind fun _ _ => .refl _
  · split
    · exact (h.prefixed _).map _
    · exact kept_postfixed h i

theorem kept_power (i : Input) : Kept (power rules i) (power rules' i) := by
  refine (kept_prefixed h i).bind fun left j => ?_
  dsimp only
  split
  · exact (h.power _).map _
  · exact .refl _

omit h in
theorem kept_climb {p q : Production Expr} (hp : ∀ i, Kept (p i) (q i)) (level : Operator.Level)
    (bound : Nat) (left : Expr) (i : Input) :
    Kept (climb level p bound left i) (climb level q bound left i) := by
  induction bound generalizing left i with
  | zero => exact .refl _
  | succ bound ih =>
    rw [climb, climb]
    split
    · exact (hp _).bind fun right j => ih _ j
    · exact .refl _

theorem kept_ladder (levels : List Operator.Level) (i : Input) :
    Kept (ladder (power rules) levels i) (ladder (power rules') levels i) := by
  induction levels generalizing i with
  | nil => exact kept_power h i
  | cons level tighter ih =>
    exact (ih i).bind fun left j => kept_climb ih level _ left j

theorem kept_conditional (i : Input) :
    KeptOrStops (conditional rules i) (conditional rules' i) := by
  refine (kept_ladder h _ i).bindOrStops fun test j => ?_
  dsimp only
  split
  · refine (h.assignment _).bindOrStops (fun consequent l => ?_) fun consequent l hl => ?_
    · exact .mark ((h.assignment _).map _)
    · exact (fails_mark hl ':' _).stops
  · exact (Kept.refl _).orStops

omit h in
/-- In front of a `=>` nothing is assigned. -/
theorem stops_assign {rules : Rules} {left : Expr} {j : Input} (hj : j.atOperator "=>" = true) :
    Stops (match operatorOf? Operator.assignment j with
      | some op => do
        expectTarget left
        let (right, l) ← rules.assignment j.skip
        .ok (.assignment op left right (left.span.to right.span), l)
      | none => .ok (left, j) : Except Failure (Expr × Input)) := by
  rw [operatorOf?_of_arrow hj (by decide)]
  exact stops_ok hj

theorem stops_conditional (hs : SoundRules rules') {i : Input} (ha : atArrow i = true) :
    Stops (conditional rules i) := by
  intro left j hl
  obtain hl | hj := kept_conditional h i left j hl
  · exact conditional_stops (sound_conditional hs hl) ha
  · exact hj

/-- The decision. An arrow function is read only where the test holds; and where it holds but
    none is chosen, what is read stops in front of the `=>`. -/
theorem keptOrStops_assignment (hs : SoundRules rules') (choice : Input → Bool) (i : Input) :
    KeptOrStops (assignmentBy choice rules i) (assignment rules' i) := by
  unfold assignmentBy
  split
  · intro e j he
    obtain ⟨ps, l, hp, hb⟩ := bind_eq_ok₂ he
    obtain ⟨ho, -⟩ := expectOperator_bind_eq_ok hb
    have hparams := sound_arrowParams hs (kept_arrowParams h i ps l hp)
    rw [assignment, atArrow_eq_of_arrowParams hparams, ho, if_pos rfl]
    exact kept_arrow h i e j he
  · unfold assignment
    cases ha : atArrow i with
    | true => exact ((stops_conditional h hs ha).bind fun _ _ hj => stops_assign hj).kept
    | false =>
      refine (kept_conditional h i).bindOrStops (fun left j => ?_) fun _ _ hj => stops_assign hj
      dsimp only
      cases operatorOf? Operator.assignment j with
      | none => exact (Kept.refl _).orStops
      | some op =>
        unfold expectTarget
        cases left.isTarget with
        | false => exact (Kept.refl _).orStops
        | true => exact (h.assignment _).map _

/-! ## Statements -/

omit h in
/-- A statement that ends in front of a `=>` leaves it. -/
theorem stops_end {α : Type} {inBody : Bool} {i : Input} (hi : i.atOperator "=>" = true)
    (f : Input → α) : Stops (statementEnd inBody i >>= fun j => .ok (f j, j)) := by
  intro a l ha
  obtain ⟨j, hj, ha⟩ := bind_eq_ok ha
  cases ha
  obtain ⟨hm, -⟩ | ⟨-, rfl, -⟩ := statementEnd_eq_ok hj
  · rw [atMark_eq_of_atOperator hi] at hm
    cases hm
  · exact hi

theorem kept_expressionStatement (hs : SoundRules rules') (choice : Input → Bool) (inBody : Bool)
    (i : Input) : KeptOrStops (expressionStatementBy choice rules inBody i)
      (expressionStatement rules' inBody i) :=
  (kept_sequence (keptOrStops_assignment h hs choice) i).bindOrStops
    (fun _ _ => (Kept.refl _).orStops) fun _ _ hj => stops_end hj _

theorem kept_returnStatement (inBody : Bool) (i : Input) :
    KeptOrStops (returnStatement rules inBody i) (returnStatement rules' inBody i) := by
  unfold returnStatement
  dsimp only
  split
  · exact (Kept.refl _).orStops
  · split
    · exact (Kept.refl _).orStops
    · exact (kept_sequence h.assignment _).bindOrStops
        (fun _ _ => (Kept.refl _).orStops) fun _ _ hj => stops_end hj _

theorem kept_statement (hs : SoundRules rules') (choice : Input → Bool) (inBody : Bool)
    (i : Input) :
    KeptOrStops (statementBy choice rules inBody i) (statement rules' inBody i) := by
  unfold statementBy statement
  split
  · exact ((kept_function h true i).map _).orStops
  · split
    · exact kept_returnStatement h inBody i
    · exact kept_expressionStatement h hs choice inBody i

omit h in
/-- No statement begins with `=>`, whatever is chosen. -/
theorem fails_statementBy (choice : Input → Bool) (rules : Rules) (inBody : Bool) {i : Input}
    (hi : i.atOperator "=>" = true) : Fails (statementBy choice rules inBody i) := by
  have hitem : assignmentBy choice rules i = .error i.refusal := by
    unfold assignmentBy
    split
    · exact arrow_refuses hi
    · rw [conditional_refuses hi]
      rfl
  rw [statementBy, atKeyword_of_arrow hi, atKeyword_of_arrow hi, if_neg Bool.false_ne_true,
    if_neg Bool.false_ne_true, expressionStatementBy, sequence_refuses hitem]
  exact fails_error _

theorem keptRules_deeperBy (hs : SoundRules rules') (choice : Input → Bool) :
    KeptRules (deeperBy choice rules) (deeper rules') where
  assignment := keptOrStops_assignment h hs choice
  power := kept_power h
  prefixed := kept_prefixed h
  statement := kept_statement h hs choice true
  refuses _ hi := fails_statementBy choice rules true hi

end

/-! ## The recursion -/

theorem keptRules_rulesBy (choice : Input → Bool) (n : Nat) :
    KeptRules (rulesBy choice n) (rules n) := by
  induction n with
  | zero =>
    exact ⟨fun _ => (Kept.refl _).orStops, fun _ => .refl _, fun _ => .refl _,
      fun _ => (Kept.refl _).orStops, fun _ _ => fails_error _⟩
  | succ n ih => exact keptRules_deeperBy ih (sound_rules n) choice

/-- In front of a `=>` a program does not go on. -/
theorem fails_programStatements {statement : Production Statement} {i : Input}
    (h : i.atOperator "=>" = true) (hs : Fails (statement i)) (bound : Nat) :
    Fails (programStatements statement bound i) := by
  cases bound with
  | zero => exact fails_error _
  | succ bound =>
    rw [programStatements, isEmpty_of_arrow h, atMark_eq_of_atOperator h]
    exact hs.bind _

theorem kept_programStatements {p q : Production Statement}
    (h : ∀ i, KeptOrStops (p i) (q i))
    (hf : ∀ i, i.atOperator "=>" = true → Fails (p i)) (bound : Nat) (i : Input) :
    Kept (programStatements p bound i) (programStatements q bound i) := by
  induction bound generalizing i with
  | zero => exact .refl _
  | succ bound ih =>
    rw [programStatements, programStatements]
    split
    · exact .refl _
    · split
      · exact ih _
      · refine (h i).bind (fun first j => (ih j).map _) fun first j hj => ?_
        exact (fails_programStatements hj (hf j hj) bound).bind _

/-- A program that is read under any choice is the one that is read. -/
theorem kept_programBy (choice : Input → Bool) (i : Input) :
    Kept (programBy choice i) (program i) :=
  kept_programStatements
    (kept_statement (keptRules_rulesBy choice i.left) (sound_rules i.left) choice false)
    (fun _ hi => fails_statementBy choice (rulesBy choice i.left) false hi) _ i

/-! ## The test and the productions -/

/-- The test for an arrow function, at any place in any tokens. Where an arrow function is read,
    the test holds. Where it holds, an expression that is no arrow function stops in front of a
    `=>`, if it is read at all; and no phrase takes a `=>` that comes next, so that a program has
    as many arrow functions as there are `=>` among its tokens. The test is the choice that the
    language makes, and a program that is read under any other choice of arrow functions is the one
    that is read under the test. The count of open parentheses never goes below zero. -/
theorem atArrow_decides :
    (∀ n i e j, arrow (rules n) i = .ok (e, j) → atArrow i = true) ∧
    (∀ n i e j, atArrow i = true → conditional (rules n) i = .ok (e, j) →
      j.atOperator "=>" = true) ∧
    (∀ i, i.atOperator "=>" = true → ∀ n k (c : Phrase k), c.Proper i →
      TakesNothing c.mayBeEmpty i (c.produce n)) ∧
    (∀ i ss j, program i = .ok (ss, j) → i.arrows = arrowsOfStatements ss) ∧
    programBy atArrow = program ∧
    (∀ choice i ss j, programBy choice i = .ok (ss, j) → program i = .ok (ss, j)) ∧
    (∀ i, i.atMark '(' = true → countedArrow 0 i.rest = some (atArrow i)) := by
  refine ⟨?_, ?_, fun i h n k c hc => takesNothing_of_arrow h n c hc,
    fun i ss j h => (readsAll_of_program h).arrows_eq, programBy_atArrow,
    fun choice i ss j h => kept_programBy choice i ss j h, fun i => countedArrow_eq⟩
  · intro n i e j h
    obtain ⟨ps, l, hp, hb⟩ := bind_eq_ok₂ h
    obtain ⟨ho, -⟩ := expectOperator_bind_eq_ok hb
    rw [atArrow_eq_of_arrowParams (sound_arrowParams (sound_rules n) hp)]
    exact ho
  · intro n i e j ha h
    exact conditional_stops (sound_conditional (sound_rules n) h) ha

/-- Parameters that are an expression as well: the test holds, the expression stops in front of
    `=>`, where no expression begins, and the program is read that is read when every parenthesis
    and no name is chosen. -/
theorem atArrow_decides_params :
    let i := Input.ofTokens (Token.ofText .template "(a, b = c) => f((d) => d)".toList)
      (.at .origin)
    (∃ e j, conditional (rules 20) i = .ok (e, j) ∧ j.atOperator "=>" = true ∧
      assignment (rules 20) j = .error j.refusal) ∧
    (∃ ss j, programBy (·.atMark '(') i = .ok (ss, j) ∧ program i = .ok (ss, j) ∧
      i.arrows = arrowsOfStatements ss) ∧
    countedArrow 0 i.rest = some true := by
  intro i
  obtain ⟨holds, stops, refuses, arrows, -, kept, counted⟩ := atArrow_decides
  have accepted : (arrow (rules 20) i).isOk = true ∧ (conditional (rules 20) i).isOk = true ∧
      (programBy (·.atMark '(') i).isOk = true ∧ i.atMark '(' = true := by decide +kernel
  obtain ⟨harrow, hconditional, hprogram, hmark⟩ := accepted
  obtain ⟨⟨a, k⟩, ha⟩ := exists_eq_ok_of_isOk harrow
  obtain ⟨⟨e, j⟩, he⟩ := exists_eq_ok_of_isOk hconditional
  obtain ⟨⟨ss, l⟩, hs⟩ := exists_eq_ok_of_isOk hprogram
  have hahead : atArrow i = true := holds 20 i a k ha
  refine ⟨?_, ?_, ?_⟩
  · have hj := stops 20 i e j hahead he
    obtain hn | ⟨hn, -⟩ := refuses j hj 20 .expr .assignment trivial
    · exact ⟨e, j, he, hj, hn⟩
    · cases hn
  · have hp := kept _ i ss l hs
    exact ⟨ss, l, hs, hp, arrows i ss l hp⟩
  · rw [counted i hmark, hahead]

end TemplateExpr.Production
