/-
  The grammar does not look at places: a production that reads a relocated input answers the
  relocated tree, or fails with the relocated failure. So all places of an answer come from the
  places of its tokens, and productions of a moved text can be read off the text itself.

  * `natural_rules`: every production of the recursion, at every depth, is natural.
  * `natural_program`: so is the production of whole programs.
-/
import TemplateExpr.Proofs.Places.Relocate
import TemplateExpr.Production.Statement

namespace TemplateExpr.Production
open Source (Place Span)

/-- What has places in it. -/
class Located (α : Type) where
  relocate : (Place → Place) → α → α

instance : Located Expr := ⟨Expr.relocate⟩
instance : Located Property := ⟨Property.relocate⟩
instance : Located Param := ⟨Param.relocate⟩
instance : Located Lambda := ⟨Lambda.relocate⟩
instance : Located Body := ⟨Body.relocate⟩
instance : Located Statement := ⟨Statement.relocate⟩
instance {α : Type} [Located α] : Located (List α) := ⟨fun f => List.map (Located.relocate f)⟩

/-- The answer of a production with its places replaced. -/
def outcome {α : Type} [Located α] (f : Place → Place) :
    Except Failure (α × Input) → Except Failure (α × Input)
  | .ok (a, i) => .ok (Located.relocate f a, i.relocate f)
  | .error failure => .error (failure.relocate f)

/-- The production reads a relocated input like the input itself. -/
def Natural {α : Type} [Located α] (p : Production α) : Prop :=
  ∀ (f : Place → Place) (i : Input), p (i.relocate f) = outcome f (p i)

/-- The productions of the nested parts are natural. -/
structure NaturalRules (rules : Rules) : Prop where
  assignment : Natural rules.assignment
  power : Natural rules.power
  prefixed : Natural rules.prefixed
  statement : Natural rules.statement

section
variable {α β : Type} [Located α] [Located β] {f : Place → Place}

theorem outcome_ok (a : α) (i : Input) :
    outcome f (.ok (a, i)) = .ok (Located.relocate f a, i.relocate f) := rfl

theorem outcome_error (failure : Failure) :
    outcome f (.error failure : Except Failure (α × Input)) = .error (failure.relocate f) := rfl

theorem error_refusal (i : Input) :
    (.error (i.relocate f).refusal : Except Failure (α × Input)) =
      outcome f (.error i.refusal) := by
  rw [Input.refusal_relocate, outcome_error]

/-! ## One step after the other -/

theorem bind_natural {p : Production α} (hp : Natural p) {i : Input}
    {more more' : α × Input → Except Failure (β × Input)}
    (h : ∀ a j, more' (Located.relocate f a, j.relocate f) = outcome f (more (a, j))) :
    (p (i.relocate f) >>= more') = outcome f (p i >>= more) := by
  rw [hp]
  cases p i with
  | error failure => rfl
  | ok result => exact h result.1 result.2

theorem bind_expectMark {i : Input} {c : Char} {more more' : Input → Except Failure (β × Input)}
    (h : ∀ j, more' (j.relocate f) = outcome f (more j)) :
    ((i.relocate f).expectMark c >>= more') = outcome f (i.expectMark c >>= more) := by
  unfold Input.expectMark
  rw [Input.atMark_relocate, Input.skip_relocate, Input.refusal_relocate]
  cases i.atMark c with
  | false => rfl
  | true => exact h i.skip

theorem bind_expectOperator {i : Input} {symbol : String}
    {more more' : Input → Except Failure (β × Input)}
    (h : ∀ j, more' (j.relocate f) = outcome f (more j)) :
    ((i.relocate f).expectOperator symbol >>= more') =
      outcome f (i.expectOperator symbol >>= more) := by
  unfold Input.expectOperator
  rw [Input.atOperator_relocate, Input.skip_relocate, Input.refusal_relocate]
  cases i.atOperator symbol with
  | false => rfl
  | true => exact h i.skip

theorem bind_expectTarget {target : Expr} {more more' : Unit → Except Failure (β × Input)}
    (h : more' () = outcome f (more ())) :
    (expectTarget (target.relocate f) >>= more') = outcome f (expectTarget target >>= more) := by
  unfold expectTarget
  rw [Expr.isTarget_relocate, Expr.span_relocate]
  cases target.isTarget with
  | false => rfl
  | true => exact h

/-! ## Series -/

theorem natural_items {item : Production α} (hi : Natural item) (close : Char) (bound : Nat) :
    Natural (items item close bound) := by
  induction bound with
  | zero => intro f i; rfl
  | succ bound ih =>
    intro f i
    rw [items, items, Input.atMark_relocate]
    cases i.atMark close with
    | true => rw [if_pos rfl, if_pos rfl, Input.skip_relocate]; rfl
    | false =>
      refine bind_natural hi fun first j => ?_
      dsimp only
      rw [Input.atMark_relocate, Input.skip_relocate]
      cases j.atMark ',' with
      | true => exact bind_natural ih fun others j => rfl
      | false => exact bind_expectMark fun j => rfl

theorem natural_enclosed {item : Production α} (hi : Natural item) (opening close : Char) :
    Natural (enclosed item opening close) := by
  intro f i
  refine bind_expectMark fun j => ?_
  rw [Input.left_relocate]
  exact natural_items hi close _ f j

theorem natural_others {item : Production α} (hi : Natural item) (bound : Nat) :
    Natural (others item bound) := by
  induction bound with
  | zero => intro f i; rfl
  | succ bound ih =>
    intro f i
    rw [others, others, Input.atMark_relocate, Input.skip_relocate]
    cases i.atMark ',' with
    | false => rfl
    | true =>
      refine bind_natural hi fun next j => ?_
      exact bind_natural ih fun more j => rfl

end

section
variable {item : Production Expr}

theorem natural_sequence (hi : Natural item) : Natural (sequence item) := by
  intro f i
  refine bind_natural hi fun first j => ?_
  dsimp only
  rw [Input.left_relocate]
  refine bind_natural (natural_others hi _) fun more j => ?_
  cases more with
  | nil => rfl
  | cons second more =>
    simp only [Located.relocate, outcome_ok, Expr.relocate_sequence, Expr.span_relocate,
      Input.spanFrom_relocate, List.map_cons]

end

/-! ## Functions -/

section
variable {rules : Rules} (hr : NaturalRules rules)
include hr

theorem natural_param : Natural (param rules) := by
  intro f i
  unfold param
  rw [Input.takeName?_relocate]
  cases i.takeName? with
  | none => exact error_refusal i
  | some found =>
    obtain ⟨id, j⟩ := found
    dsimp only [Option.map]
    rw [Input.atOperator_relocate, Input.skip_relocate]
    cases j.atOperator "=" with
    | false => rfl
    | true =>
      refine bind_natural hr.assignment fun value j => ?_
      dsimp only [Located.relocate]
      rw [Expr.span_relocate]
      rfl

theorem natural_params : Natural (params rules) :=
  natural_enclosed (natural_param hr) '(' ')'

theorem natural_blockStatements (bound : Nat) :
    Natural (blockStatements rules.statement bound) := by
  induction bound with
  | zero => intro f i; rfl
  | succ bound ih =>
    intro f i
    rw [blockStatements, blockStatements, Input.atMark_relocate, Input.isEmpty_relocate,
      Input.atMark_relocate, Input.skip_relocate, Input.refusal_relocate]
    cases i.atMark '}' with
    | true => rfl
    | false =>
      cases i.rest.isEmpty with
      | true => rfl
      | false =>
        cases i.atMark ';' with
        | true => exact ih f i.skip
        | false =>
          refine bind_natural hr.statement fun first j => ?_
          exact bind_natural ih fun others j => rfl

theorem natural_block : Natural (block rules) := by
  intro f i
  refine bind_expectMark fun j => ?_
  dsimp only
  rw [Input.left_relocate]
  refine bind_natural (natural_blockStatements hr _) fun statements j => ?_
  simp only [Located.relocate, outcome_ok, Body.relocate_block, Input.here_relocate,
    Input.spanFrom_relocate]

/-- The part of a function behind its name. -/
theorem natural_functionRest (id : Option Identifier) (start : Span) (f : Place → Place)
    (i : Input) :
    (do
      let (params, i) ← params rules (i.relocate f)
      let (body, i) ← block rules i
      .ok (⟨id.map (·.relocate f), params, body, i.spanFrom (start.relocate f)⟩, i) :
        Except Failure (Lambda × Input)) =
      outcome f (do
        let (params, i) ← params rules i
        let (body, i) ← block rules i
        .ok (⟨id, params, body, i.spanFrom start⟩, i)) := by
  refine bind_natural (natural_params hr) fun params j => ?_
  refine bind_natural (natural_block hr) fun body j => ?_
  simp only [Located.relocate, outcome_ok, Lambda.relocate_mk, Input.spanFrom_relocate]

theorem natural_function (declaration : Bool) : Natural (function rules declaration) := by
  intro f i
  unfold function
  dsimp only
  rw [Input.skip_relocate, Input.takeName?_relocate, Input.here_relocate]
  cases i.skip.takeName? with
  | none =>
    cases declaration with
    | true => exact error_refusal i.skip
    | false => exact natural_functionRest hr none i.here f i.skip
  | some found =>
    obtain ⟨id, j⟩ := found
    cases declaration with
    | true => exact natural_functionRest hr (some id) i.here f j
    | false => exact natural_functionRest hr (some id) i.here f j

omit hr in
theorem closesBeforeArrow_relocate (f : Place → Place) (depth : Nat) (tokens : List Token) :
    closesBeforeArrow depth (tokens.map (·.relocate f)) = closesBeforeArrow depth tokens := by
  induction tokens generalizing depth with
  | nil => rfl
  | cons token rest ih =>
    rw [List.map_cons, closesBeforeArrow, closesBeforeArrow, Token.lexeme_relocate, ih, ih, ih,
      List.head?_map, Option.any_map]
    rfl

omit hr in
theorem atArrow_relocate (f : Place → Place) (i : Input) :
    atArrow (i.relocate f) = atArrow i := by
  obtain ⟨last, rest, stop⟩ := i
  cases rest with
  | nil => rfl
  | cons token rest =>
    obtain ⟨lexeme, raw, newline, span⟩ := token
    cases lexeme with
    | name text => cases rest <;> rfl
    | mark c =>
      by_cases hc : c = '('
      · rw [hc]
        exact closesBeforeArrow_relocate f 1 rest
      · simp [atArrow, Input.relocate, Token.relocate, Token.mapSpan, hc]
    | _ => rfl

theorem natural_arrowParams : Natural (arrowParams rules) := by
  intro f i
  unfold arrowParams
  rw [Input.atMark_relocate, Input.takeName?_relocate]
  cases i.atMark '(' with
  | true => exact natural_params hr f i
  | false =>
    cases i.takeName? with
    | none => exact error_refusal i
    | some found => rfl

theorem natural_arrowBody : Natural (arrowBody rules) := by
  intro f i
  unfold arrowBody
  rw [Input.atMark_relocate]
  cases i.atMark '{' with
  | true => exact natural_block hr f i
  | false => exact bind_natural hr.assignment fun value j => rfl

theorem natural_arrow : Natural (arrow rules) := by
  intro f i
  refine bind_natural (natural_arrowParams hr) fun params j => ?_
  refine bind_expectOperator fun j => ?_
  refine bind_natural (natural_arrowBody hr) fun body j => ?_
  simp only [Located.relocate, outcome_ok, Expr.relocate_arrow, Lambda.relocate_mk,
    Input.here_relocate, Input.spanFrom_relocate, Option.map_none]

end

/-! ## Operands -/

theorem natural_memberName : Natural memberName := by
  intro f i
  obtain ⟨last, rest, stop⟩ := i
  cases rest with
  | nil => rfl
  | cons token rest =>
    obtain ⟨lexeme, raw, newline, span⟩ := token
    cases lexeme <;> rfl

theorem natural_namedMember {object : Expr} {optional : Bool} (f : Place → Place) (i : Input) :
    namedMember (object.relocate f) optional (i.relocate f) =
      outcome f (namedMember object optional i) := by
  refine bind_natural natural_memberName fun property j => ?_
  rw [outcome_ok, Expr.span_relocate]
  rfl

theorem plainKey?_relocate (f : Place → Place) (token : Token) :
    plainKey? (token.relocate f) =
      (plainKey? token).map fun (key, alone) => (key.relocate f, alone) := by
  obtain ⟨lexeme, raw, newline, span⟩ := token
  cases lexeme <;> rfl

theorem keywordValue?_relocate (f : Place → Place) (word : String) (token : Token) :
    keywordValue? word (token.relocate f) = (keywordValue? word token).map (·.relocate f) := by
  unfold keywordValue?
  split <;> rfl

theorem atom?_relocate (f : Place → Place) (token : Token) :
    atom? (token.relocate f) = (atom? token).map (·.relocate f) := by
  obtain ⟨lexeme, raw, newline, span⟩ := token
  cases lexeme with
  | keyword word => exact keywordValue?_relocate f word ⟨.keyword word, raw, newline, span⟩
  | _ => rfl

theorem head?_bind_relocate {α : Type} (f : Place → Place) (i : Input) (read : Token → Option α)
    (move : α → α) (h : ∀ token : Token, read (token.relocate f) = (read token).map move) :
    (i.relocate f).rest.head?.bind read = (i.rest.head?.bind read).map move := by
  rw [Input.head?_relocate]
  cases i.rest.head? with
  | none => rfl
  | some token => exact h token

section
variable {rules : Rules} (hr : NaturalRules rules)
include hr

theorem natural_property : Natural (property rules) := by
  intro f i
  unfold property
  dsimp only
  rw [Input.atMark_relocate, Input.skip_relocate, Input.here_relocate]
  cases i.atMark '[' with
  | true =>
    refine bind_natural hr.assignment fun key j => ?_
    refine bind_expectMark fun j => ?_
    refine bind_expectMark fun j => ?_
    exact bind_natural hr.assignment fun value j => rfl
  | false =>
    rw [head?_bind_relocate f i plainKey? _ (plainKey?_relocate f)]
    cases i.rest.head?.bind plainKey? with
    | none => exact error_refusal i
    | some found =>
      obtain ⟨key, alone⟩ := found
      simp only [Bool.false_eq_true, if_false, Option.map_some, Input.atMark_relocate,
        Input.skip_relocate, Input.refusal_relocate]
      cases i.skip.atMark ':' with
      | true => exact bind_natural hr.assignment fun value j => rfl
      | false => cases alone && (i.skip.atMark ',' || i.skip.atMark '}') <;> rfl

theorem natural_primary : Natural (primary rules) := by
  intro f i
  unfold primary
  rw [head?_bind_relocate f i atom? _ (atom?_relocate f)]
  cases i.rest.head?.bind atom? with
  | some e => rw [Option.map_some, Input.skip_relocate]; rfl
  | none =>
    simp only [Option.map_none, Input.atKeyword_relocate, Input.atMark_relocate,
      Input.skip_relocate, Input.here_relocate, Input.refusal_relocate]
    cases i.atKeyword "function" with
    | true => exact bind_natural (natural_function hr false) fun lambda j => rfl
    | false =>
      cases i.atMark '(' with
      | true =>
        refine bind_natural (natural_sequence hr.assignment) fun e j => ?_
        exact bind_expectMark fun j => rfl
      | false =>
        cases i.atMark '[' with
        | true =>
          refine bind_natural (natural_enclosed hr.assignment '[' ']') fun elements j => ?_
          simp only [Located.relocate, outcome_ok, Expr.relocate_array,
            Input.spanFrom_relocate]
        | false =>
          cases i.atMark '{' with
          | true =>
            refine bind_natural (natural_enclosed (natural_property hr) '{' '}')
              fun properties j => ?_
            simp only [Located.relocate, outcome_ok, Expr.relocate_object,
              Input.spanFrom_relocate]
          | false => rfl

theorem natural_computedMember {object : Expr} {optional : Bool} (f : Place → Place)
    (i : Input) :
    computedMember rules (object.relocate f) optional (i.relocate f) =
      outcome f (computedMember rules object optional i) := by
  refine bind_natural (natural_sequence hr.assignment) fun property j => ?_
  refine bind_expectMark fun j => ?_
  rw [outcome_ok, Expr.span_relocate]
  rfl

theorem natural_call {callee : Expr} {optional : Bool} (f : Place → Place) (i : Input) :
    call rules (callee.relocate f) optional (i.relocate f) =
      outcome f (call rules callee optional i) := by
  refine bind_natural (natural_enclosed hr.assignment '(' ')') fun arguments j => ?_
  simp only [Located.relocate, outcome_ok, Expr.relocate_call, Expr.span_relocate,
    Input.spanFrom_relocate]

omit hr in
theorem atLink_relocate (f : Place → Place) (i : Input) : atLink (i.relocate f) = atLink i := by
  simp only [atLink, Input.atMark_relocate, Input.atOperator_relocate]

theorem natural_link {operand : Expr} (f : Place → Place) (i : Input) :
    link rules (operand.relocate f) (i.relocate f) = outcome f (link rules operand i) := by
  unfold link
  simp only [Input.atMark_relocate, Input.atOperator_relocate, Input.skip_relocate]
  split
  · exact natural_namedMember f i.skip
  · split
    · split
      · exact natural_call hr f i.skip
      · split
        · exact natural_computedMember hr f i.skip.skip
        · exact natural_namedMember f i.skip
    · split
      · exact natural_computedMember hr f i.skip
      · exact natural_call hr f i

theorem natural_links (bound : Nat) (operand : Expr) (f : Place → Place) (i : Input) :
    links rules bound (operand.relocate f) (i.relocate f) =
      outcome f (links rules bound operand i) := by
  induction bound generalizing operand i with
  | zero => rfl
  | succ bound ih =>
    rw [links, links, atLink_relocate, natural_link hr f i]
    cases atLink i with
    | false => rfl
    | true =>
      cases link rules operand i with
      | error failure => rfl
      | ok result => exact ih result.1 result.2

theorem natural_chain : Natural (chain rules) := by
  intro f i
  refine bind_natural (natural_primary hr) fun operand j => ?_
  dsimp only
  rw [Input.left_relocate]
  exact natural_links hr _ operand f j

/-! ## Operations -/

omit hr in
theorem operatorOf?_relocate (operators : List String) (f : Place → Place) (i : Input) :
    operatorOf? operators (i.relocate f) = operatorOf? operators i := by
  rw [operatorOf?, Input.lexeme?_relocate, operatorOf?]

omit hr in
theorem binaryOf?_relocate (operators : List String) (f : Place → Place) (i : Input) :
    binaryOf? operators (i.relocate f) = binaryOf? operators i := by
  rw [binaryOf?, Input.lexeme?_relocate, binaryOf?]

omit hr in
theorem unaryOf?_relocate (f : Place → Place) (i : Input) :
    unaryOf? (i.relocate f) = unaryOf? i := by
  rw [unaryOf?, Input.lexeme?_relocate, unaryOf?]

theorem natural_postfixed : Natural (postfixed rules) := by
  intro f i
  refine bind_natural (natural_chain hr) fun argument j => ?_
  dsimp only [Located.relocate]
  rw [operatorOf?_relocate, Input.atNewline_relocate, Input.skip_relocate, Expr.span_relocate]
  cases operatorOf? Operator.update j with
  | none => rfl
  | some op =>
    cases j.atNewline with
    | true => rfl
    | false => exact bind_expectTarget rfl

theorem natural_prefixed : Natural (prefixed rules) := by
  intro f i
  unfold prefixed
  dsimp only
  rw [operatorOf?_relocate, unaryOf?_relocate, Input.skip_relocate, Input.here_relocate]
  cases operatorOf? Operator.update i with
  | some op =>
    refine bind_natural hr.prefixed fun argument j => ?_
    exact bind_expectTarget rfl
  | none =>
    cases unaryOf? i with
    | some op => exact bind_natural hr.prefixed fun argument j => rfl
    | none => exact natural_postfixed hr f i

theorem natural_power : Natural (power rules) := by
  intro f i
  refine bind_natural (natural_prefixed hr) fun left j => ?_
  dsimp only [Located.relocate]
  rw [Input.atOperator_relocate, Input.skip_relocate]
  cases j.atOperator Operator.power with
  | false => rfl
  | true =>
    refine bind_natural hr.power fun right j => ?_
    dsimp only [Located.relocate]
    rw [Expr.span_relocate, Expr.span_relocate]
    rfl

omit hr in
theorem binaryNode_relocate (level : Operator.Level) (op : String) (left right : Expr)
    (f : Place → Place) :
    binaryNode level op (left.relocate f) (right.relocate f) =
      (binaryNode level op left right).relocate f := by
  unfold binaryNode
  rw [Expr.span_relocate, Expr.span_relocate, ← relocate_to]
  cases level.logical <;> rfl

omit hr in
theorem natural_climb {operand : Production Expr} (ho : Natural operand)
    (level : Operator.Level) (bound : Nat) (left : Expr) (f : Place → Place) (i : Input) :
    climb level operand bound (left.relocate f) (i.relocate f) =
      outcome f (climb level operand bound left i) := by
  induction bound generalizing left i with
  | zero => rfl
  | succ bound ih =>
    rw [climb, climb, binaryOf?_relocate, Input.skip_relocate]
    cases binaryOf? level.operators i with
    | none => rfl
    | some op =>
      refine bind_natural ho fun right j => ?_
      dsimp only [Located.relocate]
      rw [binaryNode_relocate]
      exact ih _ j

omit hr in
theorem natural_ladder {operand : Production Expr} (ho : Natural operand)
    (levels : List Operator.Level) : Natural (ladder operand levels) := by
  induction levels with
  | nil => exact ho
  | cons level tighter ih =>
    intro f i
    refine bind_natural ih fun left j => ?_
    dsimp only
    rw [Input.left_relocate]
    exact natural_climb ih level _ left f j

theorem natural_conditional : Natural (conditional rules) := by
  intro f i
  refine bind_natural (natural_ladder (natural_power hr) Operator.levels) fun test j => ?_
  dsimp only [Located.relocate]
  rw [Input.atOperator_relocate, Input.skip_relocate]
  cases j.atOperator "?" with
  | false => rfl
  | true =>
    refine bind_natural hr.assignment fun consequent j => ?_
    refine bind_expectMark fun j => ?_
    refine bind_natural hr.assignment fun alternate j => ?_
    dsimp only [Located.relocate]
    rw [Expr.span_relocate, Expr.span_relocate]
    rfl

theorem natural_assignment : Natural (assignment rules) := by
  intro f i
  unfold assignment
  rw [atArrow_relocate]
  cases atArrow i with
  | true => exact natural_arrow hr f i
  | false =>
    refine bind_natural (natural_conditional hr) fun left j => ?_
    dsimp only [Located.relocate]
    rw [operatorOf?_relocate, Input.skip_relocate]
    cases operatorOf? Operator.assignment j with
    | none => rfl
    | some op =>
      refine bind_expectTarget ?_
      refine bind_natural hr.assignment fun right j => ?_
      dsimp only [Located.relocate]
      rw [Expr.span_relocate, Expr.span_relocate]
      rfl

/-! ## Statements -/

omit hr in
theorem bind_statementEnd {β : Type} [Located β] {inBody : Bool} {f : Place → Place} {i : Input}
    {more more' : Input → Except Failure (β × Input)}
    (h : ∀ j, more' (j.relocate f) = outcome f (more j)) :
    (statementEnd inBody (i.relocate f) >>= more') =
      outcome f (statementEnd inBody i >>= more) := by
  unfold statementEnd
  simp only [Input.atMark_relocate, Input.isEmpty_relocate, Input.atNewline_relocate,
    Input.skip_relocate, Input.refusal_relocate]
  cases i.atMark ';' with
  | true => exact h i.skip
  | false =>
    cases i.rest.isEmpty || inBody && i.atMark '}' || i.atNewline with
    | true => exact h i
    | false => rfl

theorem natural_expressionStatement (inBody : Bool) :
    Natural (expressionStatement rules inBody) := by
  intro f i
  refine bind_natural (natural_sequence (natural_assignment hr)) fun value j => ?_
  refine bind_statementEnd fun j => ?_
  rw [Input.here_relocate]
  rfl

theorem natural_returnStatement (inBody : Bool) : Natural (returnStatement rules inBody) := by
  intro f i
  unfold returnStatement
  simp only [Input.here_relocate, Input.skip_relocate, Input.atMark_relocate,
    Input.isEmpty_relocate, Input.atNewline_relocate]
  cases inBody with
  | false => rfl
  | true =>
    simp only [Bool.not_true, Bool.false_eq_true, if_false]
    split
    · exact bind_statementEnd fun j => rfl
    · refine bind_natural (natural_sequence hr.assignment) fun value j => ?_
      exact bind_statementEnd fun j => rfl

theorem natural_statement (inBody : Bool) : Natural (statement rules inBody) := by
  intro f i
  unfold statement
  rw [Input.atKeyword_relocate, Input.atKeyword_relocate]
  cases i.atKeyword "function" with
  | true => exact bind_natural (natural_function hr true) fun lambda j => rfl
  | false =>
    cases i.atKeyword "return" with
    | true => exact natural_returnStatement hr inBody f i
    | false => exact natural_expressionStatement hr inBody f i

theorem naturalRules_deeper : NaturalRules (deeper rules) where
  assignment := natural_assignment hr
  power := natural_power hr
  prefixed := natural_prefixed hr
  statement := natural_statement hr true

end

/-! ## The recursion -/

/-- Every production of the recursion is natural, however deep it may go. -/
theorem natural_rules (n : Nat) : NaturalRules (rules n) := by
  induction n with
  | zero => exact ⟨fun _ _ => rfl, fun _ _ => rfl, fun _ _ => rfl, fun _ _ => rfl⟩
  | succ n ih => exact naturalRules_deeper ih

theorem natural_programStatements {statement : Production Statement} (hs : Natural statement)
    (bound : Nat) : Natural (programStatements statement bound) := by
  induction bound with
  | zero => intro f i; rfl
  | succ bound ih =>
    intro f i
    rw [programStatements, programStatements, Input.isEmpty_relocate, Input.atMark_relocate,
      Input.skip_relocate]
    cases i.rest.isEmpty with
    | true => rfl
    | false =>
      cases i.atMark ';' with
      | true => exact ih f i.skip
      | false =>
        refine bind_natural hs fun first j => ?_
        exact bind_natural ih fun others j => rfl

/-- The production of whole programs is natural. -/
theorem natural_program : Natural program := by
  intro f i
  unfold program
  rw [Input.left_relocate]
  exact natural_programStatements (natural_statement (natural_rules _) false) _ f i

end TemplateExpr.Production
