/-
  The grammar as a relation. `Reads c i a j` says that the phrase `c` takes the tokens between
  the inputs `i` and `j` and that they stand for `a`. There is one rule for each way through a
  production, with the tests of the next token that lead there, and no bound on the recursion.

  * `Reads.suffix`: a phrase leaves a suffix of its tokens.
  * `Reads.left_lt`: a phrase that has tokens of its own leaves fewer.
  * `ReadsAll.reads_of_mem`: the statements of a program are phrases of its tokens.
-/
import TemplateExpr.Proofs.Grammar.Next

namespace TemplateExpr
open Source (Span)
open Operator (Level)

/-! ## Phrases -/

/-- What a phrase stands for. -/
inductive Kind where
  | expr
  | property
  | param
  | lambda
  | body
  | statement
  | list (of : Kind)

@[reducible] def Kind.type : Kind → Type
  | .expr => Expr
  | .property => Property
  | .param => Param
  | .lambda => Lambda
  | .body => Body
  | .statement => Statement
  | .list of => List of.type

/-- The phrases of the grammar. Some have an operand that was read before them. -/
inductive Phrase : Kind → Type where
  | assignment : Phrase .expr
  | conditional : Phrase .expr
  | ladder (levels : List Level) : Phrase .expr
  | climb (level : Level) (tighter : List Level) (left : Expr) : Phrase .expr
  | power : Phrase .expr
  | prefixed : Phrase .expr
  | postfixed : Phrase .expr
  | chain : Phrase .expr
  | links (operand : Expr) : Phrase .expr
  | link (operand : Expr) : Phrase .expr
  | primary : Phrase .expr
  | memberName : Phrase .expr
  | sequence : Phrase .expr
  | others : Phrase (.list .expr)
  | items {k : Kind} (item : Phrase k) (close : Char) : Phrase (.list k)
  | property : Phrase .property
  | param : Phrase .param
  | arrowParams : Phrase (.list .param)
  | block : Phrase .body
  | blockStatements : Phrase (.list .statement)
  | function (declaration : Bool) : Phrase .lambda
  | statement (inBody : Bool) : Phrase .statement

/-- The phrase may have no tokens of its own. -/
def Phrase.mayBeEmpty {k : Kind} : Phrase k → Bool
  | .climb _ _ _ | .links _ | .others => true
  | _ => false

/-- Nothing more belongs to a `return` than its keyword. -/
def Input.atReturnEnd (i : Input) : Bool :=
  i.rest.isEmpty || i.atMark ';' || i.atMark '}' || i.atNewline

section
open Production

inductive Reads : {k : Kind} → Phrase k → Input → k.type → Input → Prop
  -- Series
  | itemsClose {k : Kind} {item : Phrase k} {close i} :
    i.atMark close = true → Reads (.items item close) i [] i.skip
  | itemsMore {k : Kind} {item : Phrase k} {close i a j as l} :
    i.atMark close = false → Reads item i a j → j.atMark ',' = true →
    Reads (.items item close) j.skip as l → Reads (.items item close) i (a :: as) l
  | itemsLast {k : Kind} {item : Phrase k} {close i a j} :
    i.atMark close = false → Reads item i a j → j.atMark ',' = false → j.atMark close = true →
    Reads (.items item close) i [a] j.skip
  | othersNone {i} : i.atMark ',' = false → Reads .others i [] i
  | othersMore {i e j es l} :
    i.atMark ',' = true → Reads .assignment i.skip e j → Reads .others j es l →
    Reads .others i (e :: es) l
  | single {i e j l} : Reads .assignment i e j → Reads .others j [] l → Reads .sequence i e l
  | several {i e j e' es l} :
    Reads .assignment i e j → Reads .others j (e' :: es) l →
    Reads .sequence i (.sequence (e :: e' :: es) (l.spanFrom e.span)) l
  -- Functions
  | plainParam {i id j} :
    i.takeName? = some (id, j) → j.atOperator "=" = false → Reads .param i (.plain id) j
  | defaultParam {i id j e l} :
    i.takeName? = some (id, j) → j.atOperator "=" = true → Reads .assignment j.skip e l →
    Reads .param i (.withDefault id e (id.span.to e.span)) l
  | bodyEnd {i} : i.atMark '}' = true → Reads .blockStatements i [] i.skip
  | bodyEmpty {i ss j} :
    i.atMark ';' = true → Reads .blockStatements i.skip ss j → Reads .blockStatements i ss j
  | bodyNext {i s j ss l} :
    i.atMark '}' = false → i.atMark ';' = false → Reads (.statement true) i s j →
    Reads .blockStatements j ss l → Reads .blockStatements i (s :: ss) l
  | block {i ss j} :
    i.atMark '{' = true → Reads .blockStatements i.skip ss j →
    Reads .block i (.block ss (j.spanFrom i.here)) j
  | namedFunction {declaration i id j ps l b m} :
    i.atKeyword "function" = true → i.skip.takeName? = some (id, j) → j.atMark '(' = true →
    Reads (.items .param ')') j.skip ps l → Reads .block l b m →
    Reads (.function declaration) i ⟨some id, ps, b, m.spanFrom i.here⟩ m
  | namelessFunction {i ps l b m} :
    i.atKeyword "function" = true → i.skip.atMark '(' = true →
    Reads (.items .param ')') i.skip.skip ps l → Reads .block l b m →
    Reads (.function false) i ⟨none, ps, b, m.spanFrom i.here⟩ m
  | paramList {i ps j} :
    i.atMark '(' = true → Reads (.items .param ')') i.skip ps j → Reads .arrowParams i ps j
  | soleParam {i id j} : i.takeName? = some (id, j) → Reads .arrowParams i [.plain id] j
  -- Operands
  | memberName {i text} :
    i.lexeme? = some (.name text) ∨ i.lexeme? = some (.keyword text) →
    Reads .memberName i (.identifier ⟨text, none, i.here⟩) i.skip
  | computedProperty {i key j value l} :
    i.atMark '[' = true → Reads .assignment i.skip key j → j.atMark ']' = true →
    j.skip.atMark ':' = true → Reads .assignment j.skip.skip value l →
    Reads .property i ⟨key, value, true, false, l.spanFrom i.here⟩ l
  | keyedProperty {i key alone value l} :
    i.rest.head?.bind plainKey? = some (key, alone) → i.skip.atMark ':' = true →
    Reads .assignment i.skip.skip value l →
    Reads .property i ⟨key, value, false, false, l.spanFrom i.here⟩ l
  | shorthand {i key} :
    i.rest.head?.bind plainKey? = some (key, true) →
    (i.skip.atMark ',' || i.skip.atMark '}') = true →
    Reads .property i ⟨key, key, false, true, i.here⟩ i.skip
  | atom {i e} : i.rest.head?.bind atom? = some e → Reads .primary i e i.skip
  | functionValue {i f j} :
    i.atKeyword "function" = true → Reads (.function false) i f j →
    Reads .primary i (.function f) j
  | parens {i e j} :
    i.atMark '(' = true → Reads .sequence i.skip e j → j.atMark ')' = true →
    Reads .primary i e j.skip
  | array {i es j} :
    i.atMark '[' = true → Reads (.items .assignment ']') i.skip es j →
    Reads .primary i (.array es (j.spanFrom i.here)) j
  | object {i ps j} :
    i.atMark '{' = true → Reads (.items .property '}') i.skip ps j →
    Reads .primary i (.object ps (j.spanFrom i.here)) j
  | named {i o p j} :
    i.atMark '.' = true → Reads .memberName i.skip p j →
    Reads (.link o) i (.member o p false false (j.spanFrom o.span)) j
  | namedOptional {i o p j} :
    i.atOperator "?." = true → Reads .memberName i.skip p j →
    Reads (.link o) i (.member o p false true (j.spanFrom o.span)) j
  | computed {i o p j} :
    i.atMark '[' = true → Reads .sequence i.skip p j → j.atMark ']' = true →
    Reads (.link o) i (.member o p true false (j.skip.spanFrom o.span)) j.skip
  | computedOptional {i o p j} :
    i.atOperator "?." = true → i.skip.atMark '[' = true → Reads .sequence i.skip.skip p j →
    j.atMark ']' = true →
    Reads (.link o) i (.member o p true true (j.skip.spanFrom o.span)) j.skip
  | call {i o es j} :
    i.atMark '(' = true → Reads (.items .assignment ')') i.skip es j →
    Reads (.link o) i (.call o es false (j.spanFrom o.span)) j
  | callOptional {i o es j} :
    i.atOperator "?." = true → i.skip.atMark '(' = true →
    Reads (.items .assignment ')') i.skip.skip es j →
    Reads (.link o) i (.call o es true (j.spanFrom o.span)) j
  | linksNone {i o} : atLink i = false → Reads (.links o) i o i
  | linksMore {i o o' j e l} :
    Reads (.link o) i o' j → Reads (.links o') j e l → Reads (.links o) i e l
  | chain {i o j e l} : Reads .primary i o j → Reads (.links o) j e l → Reads .chain i e l
  -- Operations
  | noTrailing {i e j} :
    Reads .chain i e j → operatorOf? Operator.update j = none ∨ j.atNewline = true →
    Reads .postfixed i e j
  | trailingUpdate {i e j op} :
    Reads .chain i e j → operatorOf? Operator.update j = some op → j.atNewline = false →
    e.isTarget = true →
    Reads .postfixed i (.update op false e (j.skip.spanFrom e.span)) j.skip
  | leadingUpdate {i op e j} :
    operatorOf? Operator.update i = some op → Reads .prefixed i.skip e j → e.isTarget = true →
    Reads .prefixed i (.update op true e (j.spanFrom i.here)) j
  | unary {i op e j} :
    operatorOf? Operator.update i = none → unaryOf? i = some op → Reads .prefixed i.skip e j →
    Reads .prefixed i (.unary op e (j.spanFrom i.here)) j
  | noPrefix {i e j} :
    operatorOf? Operator.update i = none → unaryOf? i = none → Reads .postfixed i e j →
    Reads .prefixed i e j
  | noPower {i e j} :
    Reads .prefixed i e j → j.atOperator Operator.power = false → Reads .power i e j
  | power {i e j r l} :
    Reads .prefixed i e j → j.atOperator Operator.power = true → Reads .power j.skip r l →
    Reads .power i (.binary Operator.power e r (e.span.to r.span)) l
  | ladderTop {i e j} : Reads .power i e j → Reads (.ladder []) i e j
  | ladderStep {level tighter i e j r l} :
    Reads (.ladder tighter) i e j → Reads (.climb level tighter e) j r l →
    Reads (.ladder (level :: tighter)) i r l
  | climbStop {level tighter i e} :
    binaryOf? level.operators i = none → Reads (.climb level tighter e) i e i
  | climbMore {level tighter i e op r j e' l} :
    binaryOf? level.operators i = some op → Reads (.ladder tighter) i.skip r j →
    Reads (.climb level tighter (binaryNode level op e r)) j e' l →
    Reads (.climb level tighter e) i e' l
  | noConditional {i e j} :
    Reads (.ladder Operator.levels) i e j → j.atOperator "?" = false → Reads .conditional i e j
  | conditional {i test j consequent l alternate m} :
    Reads (.ladder Operator.levels) i test j → j.atOperator "?" = true →
    Reads .assignment j.skip consequent l → l.atMark ':' = true →
    Reads .assignment l.skip alternate m →
    Reads .conditional i (.conditional test consequent alternate (test.span.to alternate.span)) m
  | blockArrow {i ps j b l} :
    atArrow i = true → Reads .arrowParams i ps j → j.atOperator "=>" = true →
    Reads .block j.skip b l →
    Reads .assignment i (.arrow ⟨none, ps, b, l.spanFrom i.here⟩) l
  | arrow {i ps j e l} :
    atArrow i = true → Reads .arrowParams i ps j → j.atOperator "=>" = true →
    j.skip.atMark '{' = false → Reads .assignment j.skip e l →
    Reads .assignment i (.arrow ⟨none, ps, .expression e, l.spanFrom i.here⟩) l
  | noAssignment {i e j} :
    atArrow i = false → Reads .conditional i e j → operatorOf? Operator.assignment j = none →
    Reads .assignment i e j
  | assignment {i e j op r l} :
    atArrow i = false → Reads .conditional i e j →
    operatorOf? Operator.assignment j = some op → e.isTarget = true →
    Reads .assignment j.skip r l →
    Reads .assignment i (.assignment op e r (e.span.to r.span)) l
  -- Statements
  | declaration {inBody i f j} :
    i.atKeyword "function" = true → Reads (.function true) i f j →
    Reads (.statement inBody) i (.declaration f) j
  | bareReturn {i j} :
    i.atKeyword "return" = true → i.skip.atReturnEnd = true →
    statementEnd true i.skip = .ok j →
    Reads (.statement true) i (.return none (j.spanFrom i.here)) j
  | return {i e j l} :
    i.atKeyword "return" = true → i.skip.atReturnEnd = false → Reads .sequence i.skip e j →
    statementEnd true j = .ok l →
    Reads (.statement true) i (.return (some e) (l.spanFrom i.here)) l
  | expression {inBody i e j l} :
    i.atKeyword "function" = false → i.atKeyword "return" = false → Reads .sequence i e j →
    statementEnd inBody j = .ok l →
    Reads (.statement inBody) i (.expression e (l.spanFrom i.here)) l

/-- The input is a program with these statements. -/
inductive ReadsAll : Input → List Statement → Prop
  | done {i} : i.rest = [] → ReadsAll i []
  | empty {i ss} : i.atMark ';' = true → ReadsAll i.skip ss → ReadsAll i ss
  | next {i s j ss} :
    i.atMark ';' = false → Reads (.statement false) i s j → ReadsAll j ss →
    ReadsAll i (s :: ss)

end

/-! ## What is left -/

section
open Production
open Input (Leaves Consumes)

variable {k : Kind} {c : Phrase k} {i j : Input} {a : k.type}

/-- A phrase leaves a suffix of its tokens. -/
theorem Reads.leaves (h : Reads c i a j) : i.Leaves j := by
  induction h with
  | _ => grind -ring -linarith [Leaves.refl, → Leaves.trans, Input.leaves_skip,
      → Input.leaves_of_takeName?, → leaves_of_statementEnd]

theorem Reads.left_le (h : Reads c i a j) : j.left ≤ i.left :=
  h.leaves.left_le

/-- A phrase that is never empty leaves fewer tokens. -/
theorem Reads.consumes (h : Reads c i a j) (hc : c.mayBeEmpty = false) : i.Consumes j := by
  induction h with
  | othersNone | othersMore | linksNone | linksMore | climbStop | climbMore => cases hc
  | _ => grind -ring -linarith [Phrase.mayBeEmpty, → Reads.leaves, → Consumes.trans,
      → Leaves.consumes, → Leaves.trans, Input.leaves_skip, → Input.consumes_skip,
      → Input.consumes_of_atMark, → Input.consumes_of_atOperator, → Input.consumes_of_atKeyword,
      → Input.consumes_of_takeName?, → Input.consumes_of_bind, → consumes_of_operatorOf?,
      → consumes_of_unaryOf?, → leaves_of_statementEnd]

theorem Reads.atMark_of_block {b : Body} (h : Reads .block i b j) : i.atMark '{' = true := by
  cases h with
  | block hb _ => exact hb

/-- Each statement of a program was read from some of its tokens. -/
theorem ReadsAll.reads_of_mem {ss : List Statement} (h : ReadsAll i ss) {s : Statement}
    (hs : s ∈ ss) : ∃ i' j', i.Leaves i' ∧ Reads (.statement false) i' s j' := by
  induction h with
  | done => cases hs
  | @empty i _ _ _ ih =>
    obtain ⟨i', j', hl, hr⟩ := ih hs
    exact ⟨i', j', i.leaves_skip.trans hl, hr⟩
  | @next i t j ss _ h _ ih =>
    cases hs with
    | head => exact ⟨i, j, .refl i, h⟩
    | tail _ hs =>
      obtain ⟨i', j', hl, hr⟩ := ih hs
      exact ⟨i', j', h.leaves.trans hl, hr⟩

end

end TemplateExpr
