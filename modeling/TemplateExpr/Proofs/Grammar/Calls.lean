/-
  The productions as procedures that call each other. The body of a procedure is a script: it ends
  with an answer, or it makes a call and goes on with what the call answers. So the calls of the
  parser are data, and what is true of all of them can be said.

  In the code a call is made in one of three manners: directly, through the rules of the recursion,
  which are one level less deep, or as the next turn of a loop, which has one turn less to go.

  * `Procedure.produce_eq_run`: a production does what the script of its procedure says, each call
    made in its manner.
-/
import TemplateExpr.Proofs.Grammar.Complete

namespace TemplateExpr
open Production

/-! ## Procedures -/

/-- The procedures of the parser: a phrase each, and the parts of productions that have a name of
    their own. -/
inductive Procedure : Kind → Type where
  | phrase {k : Kind} (c : Phrase k) : Procedure k
  /-- An arrow function. -/
  | arrow : Procedure .expr
  /-- Items between two marks: parameters, arguments, elements of an array, entries of an
      object. -/
  | enclosed {k : Kind} (item : Phrase k) (opening close : Char) : Procedure (.list k)
  /-- A statement that begins with `return`. -/
  | returned (inBody : Bool) : Procedure .statement
  | program : Procedure (.list .statement)

/-- The items of a series are reached through the rules of the recursion. -/
def Phrase.isRule {k : Kind} : Phrase k → Bool
  | .assignment => true
  | _ => false

/-- The production that reads the items of a series. -/
def Phrase.part (n : Nat) {k : Kind} : Phrase k → Production k.type
  | .assignment => (rules n).assignment
  | c => c.produce n

/-- The production of a procedure, with nested parts at most `n` deep. A loop has fewer turns than
    `bound` to go. -/
def Procedure.produce (n bound : Nat) {k : Kind} : Procedure k → Production k.type
  | .phrase (.climb level tighter left) =>
    Production.climb level (Production.ladder (Production.power (rules n)) tighter) bound left
  | .phrase (.links operand) => Production.links (rules n) bound operand
  | .phrase .others => Production.others (Production.assignment (rules n)) bound
  | .phrase (.items item close) => Production.items (item.produce n) close bound
  | .phrase .blockStatements =>
    Production.blockStatements (Production.statement (rules n) true) bound
  | .phrase c => c.produce n
  | .arrow => Production.arrow (rules n)
  | .enclosed item opening close => Production.enclosed (item.part n) opening close
  | .returned inBody => Production.returnStatement (rules n) inBody
  | .program => Production.programStatements (Production.statement (rules n) false) bound

/-- A procedure, called at an input. -/
structure Call where
  {kind : Kind}
  procedure : Procedure kind
  input : Input

namespace Call

/-- What is answered with nested parts at most `n` deep: a loop may take as many turns as there are
    tokens. -/
def produce (n : Nat) (c : Call) : Except Failure (c.kind.type × Input) :=
  c.procedure.produce n (c.input.left + 1) c.input

/-- The answer of a call. The number of tokens that are left bounds the recursion. -/
def answer (c : Call) : Except Failure (c.kind.type × Input) :=
  c.produce c.input.left

end Call

/-- How one procedure calls another one. -/
inductive Manner where
  | direct
  /-- Through the rules of the recursion. -/
  | nested
  /-- As the next turn of its own loop. -/
  | again

/-- The answer of a call that is made in the given manner, when nested parts may be `n` deep and a
    loop has `turns` to go. -/
def Call.made (n turns : Nat) (c : Call) : Manner → Except Failure (c.kind.type × Input)
  | .direct => c.produce n
  | .nested =>
    match n with
    | 0 => .error .exhausted
    | n + 1 => c.produce n
  | .again => c.procedure.produce n turns c.input

/-! ## Scripts -/

/-- What a procedure does: it ends, or it makes a call and goes on with the answer. -/
inductive Script (α : Type) where
  | done (answer : Except Failure α)
  | call (manner : Manner) (c : Call) (next : c.kind.type × Input → Script α)

namespace Script
variable {α β : Type}

/-- A failure of the first script ends both. -/
protected def bind : Script α → (α → Script β) → Script β
  | .done (.ok a), f => f a
  | .done (.error failure), _ => .done (.error failure)
  | .call manner c next, f => .call manner c fun x => (next x).bind f

instance : Monad Script where
  pure a := .done (.ok a)
  bind := Script.bind

instance : MonadLift (Except Failure) Script where
  monadLift := .done

/-- A call whose answer is the answer of the script. -/
def ask (manner : Manner) {k : Kind} (c : Procedure k) (i : Input) : Script (k.type × Input) :=
  .call manner ⟨c, i⟩ pure

abbrev read {k : Kind} (c : Phrase k) (i : Input) : Script (k.type × Input) :=
  ask .direct (.phrase c) i

abbrev nested {k : Kind} (c : Phrase k) (i : Input) : Script (k.type × Input) :=
  ask .nested (.phrase c) i

/-- What the script answers, when its calls are made in their manners. -/
def run (n turns : Nat) : Script α → Except Failure α
  | .done answer => answer
  | .call manner c next => c.made n turns manner >>= fun x => (next x).run n turns

/-- What the script answers, when its calls answer. -/
def eval : Script α → Except Failure α
  | .done answer => answer
  | .call _ c next => c.answer >>= fun x => (next x).eval

/-- The script makes the call, once those before it have answered. -/
inductive Makes : Script α → Call → Prop
  | now {manner c next} : Makes (.call manner c next) c
  | later {manner c next x inner} :
    c.answer = .ok x → Makes (next x) inner → Makes (.call manner c next) inner

end Script

/-! ## Bodies -/

open Script in
/-- What a procedure does at an input. -/
def Procedure.body {k : Kind} : Procedure k → Input → Script (k.type × Input)
  -- Series
  | .enclosed item opening close, i => do
    let i ← i.expectMark opening
    ask (if item.isRule then .nested else .direct) (.phrase (.items item close)) i
  | .phrase (.items item close), i =>
    if i.atMark close then pure ([], i.skip)
    else do
      let (first, i) ← read item i
      if i.atMark ',' then
        let (others, i) ← ask .again (.phrase (.items item close)) i.skip
        pure (first :: others, i)
      else
        let i ← i.expectMark close
        pure ([first], i)
  | .phrase .others, i =>
    if i.atMark ',' then do
      let (next, i) ← read .assignment i.skip
      let (more, i) ← ask .again (.phrase .others) i
      pure (next :: more, i)
    else pure ([], i)
  | .phrase .sequence, i => do
    let (first, i) ← read .assignment i
    let (more, i) ← read .others i
    match more with
    | [] => pure (first, i)
    | _ :: _ => pure (.sequence (first :: more) (i.spanFrom first.span), i)
  -- Functions
  | .phrase .param, i =>
    match i.takeName? with
    | none => .done (.error i.refusal)
    | some (id, i) =>
      if i.atOperator "=" then do
        let (value, i) ← nested .assignment i.skip
        pure (.withDefault id value (id.span.to value.span), i)
      else pure (.plain id, i)
  | .phrase .blockStatements, i =>
    if i.atMark '}' then pure ([], i.skip)
    else if i.rest.isEmpty then .done (.error i.refusal)
    else if i.atMark ';' then ask .again (.phrase .blockStatements) i.skip
    else do
      let (first, i) ← read (.statement true) i
      let (others, i) ← ask .again (.phrase .blockStatements) i
      pure (first :: others, i)
  | .phrase .block, i => do
    let start := i.here
    let i ← i.expectMark '{'
    let (statements, i) ← nested .blockStatements i
    pure (.block statements (i.spanFrom start), i)
  | .phrase (.function declaration), i => do
    let start := i.here
    let i := i.skip
    let (id, i) := match i.takeName? with
      | some (id, i) => (some id, i)
      | none => (none, i)
    if declaration && id.isNone then .done (.error i.refusal)
    else
      let (params, i) ← ask .direct (.enclosed .param '(' ')') i
      let (body, i) ← read .block i
      pure (⟨id, params, body, i.spanFrom start⟩, i)
  | .phrase .arrowParams, i =>
    if i.atMark '(' then ask .direct (.enclosed .param '(' ')') i
    else match i.takeName? with
      | some (id, i) => pure ([.plain id], i)
      | none => .done (.error i.refusal)
  | .arrow, i => do
    let start := i.here
    let (params, i) ← read .arrowParams i
    let i ← i.expectOperator "=>"
    let (body, i) ←
      if i.atMark '{' then read .block i
      else do
        let (value, i) ← nested .assignment i
        pure (.expression value, i)
    pure (.arrow ⟨none, params, body, i.spanFrom start⟩, i)
  -- Operands
  | .phrase .memberName, i => .done (memberName i)
  | .phrase .property, i => do
    let start := i.here
    if i.atMark '[' then
      let (key, i) ← nested .assignment i.skip
      let i ← i.expectMark ']'
      let i ← i.expectMark ':'
      let (value, i) ← nested .assignment i
      pure (⟨key, value, true, false, i.spanFrom start⟩, i)
    else
      match i.rest.head?.bind plainKey? with
      | none => .done (.error i.refusal)
      | some (key, alone) =>
        let i := i.skip
        if i.atMark ':' then
          let (value, i) ← nested .assignment i.skip
          pure (⟨key, value, false, false, i.spanFrom start⟩, i)
        else if alone && (i.atMark ',' || i.atMark '}') then
          pure (⟨key, key, false, true, start⟩, i)
        else .done (.error i.refusal)
  | .phrase .primary, i =>
    match i.rest.head?.bind atom? with
    | some e => pure (e, i.skip)
    | none =>
      if i.atKeyword "function" then do
        let (lambda, i) ← read (.function false) i
        pure (.function lambda, i)
      else if i.atMark '(' then do
        let (e, i) ← nested .sequence i.skip
        let i ← i.expectMark ')'
        pure (e, i)
      else if i.atMark '[' then do
        let start := i.here
        let (elements, i) ← ask .direct (.enclosed .assignment '[' ']') i
        pure (.array elements (i.spanFrom start), i)
      else if i.atMark '{' then do
        let start := i.here
        let (properties, i) ← ask .direct (.enclosed .property '{' '}') i
        pure (.object properties (i.spanFrom start), i)
      else .done (.error i.refusal)
  | .phrase (.link operand), i =>
    let named (optional : Bool) (i : Input) : Script (Expr × Input) := do
      let (property, i) ← read .memberName i
      pure (.member operand property false optional (i.spanFrom operand.span), i)
    let computed (optional : Bool) (i : Input) : Script (Expr × Input) := do
      let (property, i) ← nested .sequence i
      let i ← i.expectMark ']'
      pure (.member operand property true optional (i.spanFrom operand.span), i)
    let called (optional : Bool) (i : Input) : Script (Expr × Input) := do
      let (arguments, i) ← ask .direct (.enclosed .assignment '(' ')') i
      pure (.call operand arguments optional (i.spanFrom operand.span), i)
    if i.atMark '.' then named false i.skip
    else if i.atOperator "?." then
      if i.skip.atMark '(' then called true i.skip
      else if i.skip.atMark '[' then computed true i.skip.skip
      else named true i.skip
    else if i.atMark '[' then computed false i.skip
    else called false i
  | .phrase (.links operand), i =>
    if atLink i then do
      let (operand, i) ← read (.link operand) i
      ask .again (.phrase (.links operand)) i
    else pure (operand, i)
  | .phrase .chain, i => do
    let (operand, i) ← read .primary i
    read (.links operand) i
  -- Operations
  | .phrase .postfixed, i => do
    let (argument, i) ← read .chain i
    match operatorOf? Operator.update i with
    | some op =>
      if i.atNewline then pure (argument, i)
      else
        expectTarget argument
        let i := i.skip
        pure (.update op false argument (i.spanFrom argument.span), i)
    | none => pure (argument, i)
  | .phrase .prefixed, i => do
    let start := i.here
    match operatorOf? Operator.update i with
    | some op =>
      let (argument, i) ← nested .prefixed i.skip
      expectTarget argument
      pure (.update op true argument (i.spanFrom start), i)
    | none =>
      match unaryOf? i with
      | some op =>
        let (argument, i) ← nested .prefixed i.skip
        pure (.unary op argument (i.spanFrom start), i)
      | none => read .postfixed i
  | .phrase .power, i => do
    let (left, i) ← read .prefixed i
    if i.atOperator Operator.power then
      let (right, i) ← nested .power i.skip
      pure (.binary Operator.power left right (left.span.to right.span), i)
    else pure (left, i)
  | .phrase (.ladder []), i => read .power i
  | .phrase (.ladder (level :: tighter)), i => do
    let (left, i) ← read (.ladder tighter) i
    read (.climb level tighter left) i
  | .phrase (.climb level tighter left), i =>
    match binaryOf? level.operators i with
    | some op => do
      let (right, i) ← read (.ladder tighter) i.skip
      ask .again (.phrase (.climb level tighter (binaryNode level op left right))) i
    | none => pure (left, i)
  | .phrase .conditional, i => do
    let (test, i) ← read (.ladder Operator.levels) i
    if i.atOperator "?" then
      let (consequent, i) ← nested .assignment i.skip
      let i ← i.expectMark ':'
      let (alternate, i) ← nested .assignment i
      pure (.conditional test consequent alternate (test.span.to alternate.span), i)
    else pure (test, i)
  | .phrase .assignment, i =>
    if atArrow i then ask .direct .arrow i
    else do
      let (left, i) ← read .conditional i
      match operatorOf? Operator.assignment i with
      | some op =>
        expectTarget left
        let (right, i) ← nested .assignment i.skip
        pure (.assignment op left right (left.span.to right.span), i)
      | none => pure (left, i)
  -- Statements
  | .returned inBody, i => do
    let start := i.here
    if !inBody then .done (.error (.fault .strayReturn start.start))
    else
      let i := i.skip
      if i.rest.isEmpty || i.atMark ';' || i.atMark '}' || i.atNewline then
        let i ← statementEnd inBody i
        pure (.return none (i.spanFrom start), i)
      else
        let (value, i) ← nested .sequence i
        let i ← statementEnd inBody i
        pure (.return (some value) (i.spanFrom start), i)
  | .phrase (.statement inBody), i =>
    if i.atKeyword "function" then do
      let (lambda, i) ← read (.function true) i
      pure (.declaration lambda, i)
    else if i.atKeyword "return" then ask .direct (.returned inBody) i
    else do
      let start := i.here
      let (value, i) ← read .sequence i
      let i ← statementEnd inBody i
      pure (.expression value (i.spanFrom start), i)
  | .program, i =>
    if i.rest.isEmpty then pure ([], i)
    else if i.atMark ';' then ask .again .program i.skip
    else do
      let (first, i) ← read (.statement false) i
      let (others, i) ← ask .again .program i
      pure (first :: others, i)

/-! ## Runs -/

@[simp] theorem bind_ok {α : Type} (x : Except Failure α) : (x >>= fun a => .ok a) = x := by
  cases x <;> rfl

@[simp] theorem error_bind {α β : Type} (failure : Failure) (f : α → Except Failure β) :
    (.error failure >>= f) = .error failure :=
  rfl

namespace Script
variable {α β : Type} {n turns : Nat}

@[simp] theorem run_done (answer : Except Failure α) : (done answer).run n turns = answer :=
  rfl

@[simp] theorem run_pure (a : α) : (pure a : Script α).run n turns = .ok a :=
  rfl

@[simp] theorem run_liftM (answer : Except Failure α) :
    (liftM answer : Script α).run n turns = answer :=
  rfl

@[simp] theorem run_call (manner : Manner) (c : Call)
    (next : c.kind.type × Input → Script α) :
    (call manner c next).run n turns =
      c.made n turns manner >>= fun x => (next x).run n turns :=
  rfl

theorem run_ask (manner : Manner) {k : Kind} (c : Procedure k) (i : Input) :
    (ask manner c i).run n turns = Call.made n turns ⟨c, i⟩ manner :=
  bind_ok _

@[simp] theorem run_bind (x : Script α) (f : α → Script β) :
    (x >>= f).run n turns = x.run n turns >>= fun a => (f a).run n turns := by
  induction x with
  | done answer => cases answer <;> rfl
  | call manner c next ih =>
    change (c.made n turns manner >>= fun y => (next y >>= f).run n turns) = _
    rw [funext ih, run_call]
    cases c.made n turns manner <;> rfl

@[simp] theorem run_ite (p : Prop) [Decidable p] (x y : Script α) :
    (if p then x else y).run n turns = if p then x.run n turns else y.run n turns :=
  apply_ite _ p x y

end Script

namespace Call
variable {n turns : Nat} {k : Kind}

@[simp] theorem made_direct (c : Procedure k) (i : Input) :
    Call.made n turns ⟨c, i⟩ .direct = c.produce n (i.left + 1) i :=
  rfl

@[simp] theorem made_again (c : Procedure k) (i : Input) :
    Call.made n turns ⟨c, i⟩ .again = c.produce n turns i :=
  rfl

@[simp] theorem made_nested (c : Procedure k) (i : Input) :
    Call.made (n + 1) turns ⟨c, i⟩ .nested = c.produce n (i.left + 1) i :=
  rfl

@[simp] theorem made_assignment (i : Input) :
    Call.made n turns ⟨.phrase .assignment, i⟩ .nested = (rules n).assignment i := by
  cases n <;> rfl

@[simp] theorem made_power (i : Input) :
    Call.made n turns ⟨.phrase .power, i⟩ .nested = (rules n).power i := by
  cases n <;> rfl

@[simp] theorem made_prefixed (i : Input) :
    Call.made n turns ⟨.phrase .prefixed, i⟩ .nested = (rules n).prefixed i := by
  cases n <;> rfl

@[simp] theorem made_sequence (i : Input) :
    Call.made n turns ⟨.phrase .sequence, i⟩ .nested =
      Production.sequence (rules n).assignment i := by
  cases n <;> rfl

end Call

namespace Procedure
variable {k : Kind} {n bound : Nat} {i : Input}

@[simp] theorem made_phrase {turns : Nat} (c : Phrase k) (i : Input) :
    Call.made n turns ⟨phrase c, i⟩ .direct = c.produce n i := by
  cases c <;> simp only [Call.made_direct, produce, Phrase.produce]

section
attribute [local simp] Script.ask produce body Phrase.produce Phrase.part

/-- Behind the opening mark one level of the recursion is left for the items. -/
theorem produce_enclosed (item : Phrase k) (opening close : Char) (h : i.left ≤ n) :
    (enclosed item opening close).produce n (bound + 1) i =
      ((enclosed item opening close).body i).run n bound := by
  cases ho : i.atMark opening with
  | false => simp [Production.enclosed, Input.expectMark, ho]
  | true =>
    obtain ⟨m, rfl, -⟩ := (Input.consumes_of_atMark ho).depth h
    cases item <;> simp [Production.enclosed, Phrase.isRule, rules, deeper]

theorem produce_block (h : i.left ≤ n) :
    (phrase .block).produce n (bound + 1) i = ((phrase .block).body i).run n bound := by
  cases ho : i.atMark '{' with
  | false => simp [Production.block, Input.expectMark, ho]
  | true =>
    obtain ⟨m, rfl, -⟩ := (Input.consumes_of_atMark ho).depth h
    simp [Production.block, rules, deeper]

/-- A production does what the script of its procedure says. -/
theorem produce_eq_run (c : Procedure k) (h : i.left ≤ n) :
    c.produce n (bound + 1) i = (c.body i).run n bound := by
  cases c with
  | enclosed item opening close => exact produce_enclosed item opening close h
  | returned inBody => simp [returnStatement]
  | program => simp [programStatements]
  | arrow =>
    rw [produce, Production.arrow, body, Script.run_bind, Script.run_ask, made_phrase]
    refine bind_congr ?_
    rintro ⟨params, j⟩
    rw [Script.run_bind, Script.run_liftM]
    refine bind_congr fun l => ?_
    cases hb : l.atMark '{' <;> simp [arrowBody, hb]
  | phrase c =>
    cases c with
    -- Series
    | items item close => simp [items, -Call.made_direct]
    | others => simp [others]
    | sequence =>
      simp only [produce, Phrase.produce, Production.sequence]
      rw [body, Script.run_bind, Script.run_ask, made_phrase]
      refine bind_congr ?_
      rintro ⟨first, j⟩
      rw [Script.run_bind, Script.run_ask, made_phrase]
      refine bind_congr ?_
      rintro ⟨more, l⟩
      cases more <;> simp
    -- Functions
    | param =>
      cases ht : i.takeName? <;> simp [param, ht]
    | blockStatements => simp [blockStatements]
    | block => exact produce_block h
    | function declaration =>
      cases ht : i.skip.takeName? <;> simp [function, params, ht]
    | arrowParams =>
      cases ht : i.takeName? <;> simp [arrowParams, params, ht]
    -- Operands
    | memberName => simp
    | property =>
      cases hk : i.rest.head?.bind plainKey? <;> simp [property, hk]
    | primary =>
      cases ha : i.rest.head?.bind atom? <;> simp [primary, ha]
    | link operand => simp [link, namedMember, computedMember, call]
    | links operand => simp [links]
    | chain => simp [chain]
    -- Operations
    | postfixed =>
      simp only [produce, Phrase.produce, postfixed]
      rw [body, Script.run_bind, Script.run_ask, made_phrase]
      refine bind_congr ?_
      rintro ⟨argument, j⟩
      cases ho : operatorOf? Operator.update j <;> simp [ho]
    | prefixed =>
      cases ho : operatorOf? Operator.update i with
      | some op => simp [prefixed, ho]
      | none => cases hu : unaryOf? i <;> simp [prefixed, ho, hu]
    | power => simp [power]
    | ladder levels => cases levels <;> simp [ladder]
    | climb level tighter left =>
      cases ho : binaryOf? level.operators i <;> simp [climb, ho]
    | conditional => simp [conditional, operation]
    | assignment =>
      cases ha : atArrow i with
      | true => simp [assignment, ha]
      | false =>
        simp only [produce, Phrase.produce, assignment, body, ha, Bool.false_eq_true, if_false]
        rw [Script.run_bind, Script.run_ask, made_phrase]
        refine bind_congr ?_
        rintro ⟨left, j⟩
        cases operatorOf? Operator.assignment j <;> simp
    -- Statements
    | statement inBody => simp [statement, expressionStatement]

end

end Procedure

end TemplateExpr
