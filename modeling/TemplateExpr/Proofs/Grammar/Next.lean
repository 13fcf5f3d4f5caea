/-
  What the tests of an input say about its next token, and how inputs follow one another.

  * `atMark_iff` and its companions: a test that succeeds gives the lexeme that comes next.
  * `atomOf_of_atom?`: the tokens that are a value by themselves.
  * `Input.Leaves`: the one input is left behind some tokens of the other; `Input.Consumes`:
    behind one token at least.
-/
import TemplateExpr.Production.Statement

namespace TemplateExpr
open Source (Span)

/-! ## Lexemes -/

namespace Lexeme

theorem isMark_iff {lexeme : Lexeme} {c : Char} :
    lexeme.isMark c = true ↔ lexeme = .mark c := by
  cases lexeme <;> simp [isMark]

theorem isOperator_iff {lexeme : Lexeme} {symbol : String} :
    lexeme.isOperator symbol = true ↔ lexeme = .operator symbol := by
  cases lexeme <;> simp [isOperator]

theorem isKeyword_iff {lexeme : Lexeme} {word : String} :
    lexeme.isKeyword word = true ↔ lexeme = .keyword word := by
  cases lexeme <;> simp [isKeyword]

end Lexeme

namespace Input

/-! ## The next token -/

variable {i j k : Input}

theorem atMark_iff {c : Char} : i.atMark c = true ↔ i.lexeme? = some (.mark c) := by
  unfold atMark
  cases i.lexeme? <;> simp [Lexeme.isMark_iff]

theorem atOperator_iff {symbol : String} :
    i.atOperator symbol = true ↔ i.lexeme? = some (.operator symbol) := by
  unfold atOperator
  cases i.lexeme? <;> simp [Lexeme.isOperator_iff]

theorem atKeyword_iff {word : String} :
    i.atKeyword word = true ↔ i.lexeme? = some (.keyword word) := by
  unfold atKeyword
  cases i.lexeme? <;> simp [Lexeme.isKeyword_iff]

theorem lexeme?_eq_some_iff {lexeme : Lexeme} :
    i.lexeme? = some lexeme ↔
      ∃ token rest, i.rest = token :: rest ∧ token.lexeme = lexeme := by
  unfold lexeme?
  cases i.rest <;> simp

theorem takeName?_eq_some_iff {id : Identifier} :
    i.takeName? = some (id, j) ↔
      ∃ text, i.lexeme? = some (.name text) ∧ id = ⟨text, none, i.here⟩ ∧ j = i.skip := by
  obtain ⟨last, rest, stop⟩ := i
  cases rest with
  | nil => simp [takeName?, lexeme?]
  | cons token rest =>
    obtain ⟨lexeme, raw, newline, span⟩ := token
    cases lexeme <;> simp [takeName?, lexeme?, here, eq_comm]

theorem takeName?_eq_none_iff :
    i.takeName? = none ↔ ∀ text, i.lexeme? ≠ some (.name text) := by
  obtain ⟨last, rest, stop⟩ := i
  cases rest with
  | nil => simp [takeName?, lexeme?]
  | cons token rest =>
    obtain ⟨lexeme, raw, newline, span⟩ := token
    cases lexeme <;> simp [takeName?, lexeme?]

theorem head?_bind_eq_some_iff {α : Type} {read : Token → Option α} {a : α} :
    i.rest.head?.bind read = some a ↔
      ∃ token rest, i.rest = token :: rest ∧ read token = some a := by
  cases i.rest <;> simp

/-! ## Inputs behind inputs -/

/-- The second input is what is left of the first behind some tokens. -/
def Leaves (i j : Input) : Prop :=
  j.rest <:+ i.rest

/-- The second input is what is left of the first behind one token or more. -/
def Consumes (i j : Input) : Prop :=
  i.Leaves j ∧ j.left < i.left

theorem Leaves.refl (i : Input) : i.Leaves i :=
  List.suffix_rfl

theorem Leaves.left_le (h : i.Leaves j) : j.left ≤ i.left :=
  h.length_le

theorem Leaves.trans (h : i.Leaves j) (h' : j.Leaves k) : i.Leaves k :=
  List.IsSuffix.trans h' h

theorem Consumes.trans (h : i.Consumes j) (h' : j.Leaves k) : i.Consumes k :=
  ⟨h.1.trans h', Nat.lt_of_le_of_lt h'.left_le h.2⟩

theorem Leaves.consumes (h : i.Leaves j) (h' : j.Consumes k) : i.Consumes k :=
  ⟨h.trans h'.1, Nat.lt_of_lt_of_le h'.2 h.left_le⟩

theorem Consumes.lexeme? (h : i.Consumes j) : ∃ lexeme, i.lexeme? = some lexeme := by
  have hl : 0 < i.rest.length := Nat.lt_of_le_of_lt (Nat.zero_le _) h.2
  cases hr : i.rest with
  | nil => rw [hr] at hl; exact absurd hl (Nat.lt_irrefl 0)
  | cons token rest => exact ⟨token.lexeme, lexeme?_eq_some_iff.2 ⟨token, rest, hr, rfl⟩⟩

theorem leaves_skip (i : Input) : i.Leaves i.skip := by
  obtain ⟨last, rest, stop⟩ := i
  cases rest with
  | nil => exact List.suffix_rfl
  | cons token rest => exact List.suffix_cons token rest

/-- A token that was seen is behind. -/
theorem consumes_skip {lexeme : Lexeme} (h : i.lexeme? = some lexeme) : i.Consumes i.skip := by
  refine ⟨i.leaves_skip, ?_⟩
  obtain ⟨token, rest, hr, -⟩ := lexeme?_eq_some_iff.1 h
  rw [left_skip, left, hr, List.length_cons]
  omega

theorem consumes_of_atMark {c : Char} (h : i.atMark c = true) : i.Consumes i.skip :=
  consumes_skip (atMark_iff.1 h)

theorem consumes_of_atOperator {symbol : String} (h : i.atOperator symbol = true) :
    i.Consumes i.skip :=
  consumes_skip (atOperator_iff.1 h)

theorem consumes_of_atKeyword {word : String} (h : i.atKeyword word = true) :
    i.Consumes i.skip :=
  consumes_skip (atKeyword_iff.1 h)

theorem consumes_of_takeName? {id : Identifier} (h : i.takeName? = some (id, j)) :
    i.Consumes j := by
  obtain ⟨text, ht, -, rfl⟩ := takeName?_eq_some_iff.1 h
  exact consumes_skip ht

theorem leaves_of_takeName? {id : Identifier} (h : i.takeName? = some (id, j)) : i.Leaves j :=
  (consumes_of_takeName? h).1

theorem consumes_of_bind {α : Type} {read : Token → Option α} {a : α}
    (h : i.rest.head?.bind read = some a) : i.Consumes i.skip := by
  obtain ⟨token, rest, hr, -⟩ := head?_bind_eq_some_iff.1 h
  exact consumes_skip (lexeme?_eq_some_iff.2 ⟨token, rest, hr, rfl⟩)

end Input

/-! ## Single values -/

namespace Production

/-- A token, and the value that it is by itself. -/
inductive AtomOf : Token → Expr → Prop
  | name {text raw newline span} :
    AtomOf ⟨.name text, raw, newline, span⟩ (.identifier ⟨text, none, span⟩)
  | number {value raw newline span} :
    AtomOf ⟨.number value, raw, newline, span⟩ (.literal (.number value) raw span)
  | text {value raw newline span} :
    AtomOf ⟨.text value, raw, newline, span⟩ (.literal (.text value) raw span)
  | true {raw newline span} :
    AtomOf ⟨.keyword "true", raw, newline, span⟩ (.literal (.boolean Bool.true) raw span)
  | false {raw newline span} :
    AtomOf ⟨.keyword "false", raw, newline, span⟩ (.literal (.boolean Bool.false) raw span)
  | null {raw newline span} :
    AtomOf ⟨.keyword "null", raw, newline, span⟩ (.literal .null raw span)
  | this {raw newline span} : AtomOf ⟨.keyword "this", raw, newline, span⟩ (.this span)

theorem atomOf_of_atom? {token : Token} {e : Expr} (h : atom? token = some e) :
    AtomOf token e := by
  obtain ⟨lexeme, raw, newline, span⟩ := token
  cases lexeme with
  | name => cases h; exact .name
  | number => cases h; exact .number
  | text => cases h; exact .text
  | keyword word =>
    change keywordValue? word _ = some e at h
    unfold keywordValue? at h
    split at h <;> cases h
    · exact .true
    · exact .false
    · exact .null
    · exact .this
  | mark | operator | fault => cases h

/-! ## Operators -/

variable {i j : Input} {operators : List String} {op : String}

theorem ite_contains_eq_some_iff {symbol : String} :
    (if operators.contains symbol then some symbol else none) = some op ↔
      symbol = op ∧ op ∈ operators := by
  by_cases h : symbol ∈ operators
  · simp only [List.contains_iff_mem, h, if_true, Option.some.injEq]
    exact ⟨fun e => ⟨e, e ▸ h⟩, And.left⟩
  · simp only [List.contains_iff_mem, h, if_false, reduceCtorEq, false_iff]
    rintro ⟨rfl, h'⟩
    exact h h'

theorem operatorOf?_eq_some_iff :
    operatorOf? operators i = some op ↔ i.lexeme? = some (.operator op) ∧ op ∈ operators := by
  unfold operatorOf?
  split
  · next symbol h => rw [h, ite_contains_eq_some_iff]; simp
  · next h =>
    simp only [reduceCtorEq, false_iff, not_and]
    exact fun e => absurd e (h op)

theorem binaryOf?_eq_some_iff :
    binaryOf? operators i = some op ↔
      (i.lexeme? = some (.operator op) ∨ i.lexeme? = some (.keyword op)) ∧ op ∈ operators := by
  unfold binaryOf?
  split
  · next symbol h => rw [h, ite_contains_eq_some_iff]; simp
  · next symbol h => rw [h, ite_contains_eq_some_iff]; simp
  · next h h' =>
    simp only [reduceCtorEq, false_iff, not_and]
    rintro (e | e)
    · exact absurd e (h op)
    · exact absurd e (h' op)

theorem unaryOf?_eq_some_iff :
    unaryOf? i = some op ↔
      (i.lexeme? = some (.operator op) ∧ op ∈ Operator.unary) ∨
        (i.lexeme? = some (.keyword op) ∧ op ∈ Operator.unaryWords) := by
  unfold unaryOf?
  split
  · next symbol h => rw [h, ite_contains_eq_some_iff]; simp
  · next symbol h => rw [h, ite_contains_eq_some_iff]; simp
  · next h h' =>
    simp only [reduceCtorEq, false_iff, not_or, not_and]
    exact ⟨fun e => absurd e (h op), fun e => absurd e (h' op)⟩

theorem consumes_of_operatorOf? (h : operatorOf? operators i = some op) : i.Consumes i.skip :=
  Input.consumes_skip (operatorOf?_eq_some_iff.1 h).1

theorem consumes_of_binaryOf? (h : binaryOf? operators i = some op) : i.Consumes i.skip := by
  obtain ⟨h | h, -⟩ := binaryOf?_eq_some_iff.1 h <;> exact Input.consumes_skip h

theorem consumes_of_unaryOf? (h : unaryOf? i = some op) : i.Consumes i.skip := by
  obtain ⟨h, -⟩ | ⟨h, -⟩ := unaryOf?_eq_some_iff.1 h <;> exact Input.consumes_skip h

/-- A statement ends behind its semicolon, or where it stands. -/
theorem statementEnd_eq_ok {inBody : Bool} (h : statementEnd inBody i = .ok j) :
    (i.atMark ';' = true ∧ j = i.skip) ∨
      (i.atMark ';' = false ∧ j = i ∧
        (i.rest.isEmpty || (inBody && i.atMark '}') || i.atNewline) = true) := by
  unfold statementEnd at h
  split at h
  · next hs => cases h; exact .inl ⟨hs, rfl⟩
  · next hs =>
    split at h
    · next he => cases h; exact .inr ⟨by simpa using hs, rfl, he⟩
    · cases h

theorem leaves_of_statementEnd {inBody : Bool} (h : statementEnd inBody i = .ok j) :
    i.Leaves j := by
  obtain ⟨-, rfl⟩ | ⟨-, rfl, -⟩ := statementEnd_eq_ok h
  · exact i.leaves_skip
  · exact .refl _

end Production

end TemplateExpr
