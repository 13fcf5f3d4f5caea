/-
  Tapes: inputs whose tokens are all at one place, on one line. What the grammar reads from a
  tape does not depend on where its tokens came from.

  * `Lexeme.grip`: how tight a lexeme holds on to an operand in front of it, in the numbers of
    `Precedence`. A phrase stops before a lexeme that grips looser than it (`Stops`).
-/
import TemplateExpr.Proofs.Grammar.Reads
import TemplateExpr.Proofs.Places.Relocate
import TemplateExpr.Syntax.Precedence
import TemplateExpr.Token.Symbol

namespace TemplateExpr
open Source (Place Span)
open Operator (Level)

/-! ## Pieces -/

/-- A lexeme and its characters. `block` says of `=>` that a block follows. -/
structure Piece where
  lexeme : Lexeme
  raw : String
  block : Bool := false

namespace Piece

def mark (c : Char) : Piece := ⟨.mark c, String.singleton c, false⟩

def name (text : String) : Piece := ⟨.name text, text, false⟩

def keyword (word : String) : Piece := ⟨.keyword word, word, false⟩

def operator (symbol : String) : Piece := ⟨.operator symbol, symbol, false⟩

/-- An operator, which may be a reserved word. -/
def symbol (op : String) : Piece :=
  if Symbol.keywords.contains op then keyword op else operator op

/-- `=>`, and whether a block follows. -/
def arrow (block : Bool) : Piece := ⟨.operator "=>", "=>", block⟩

@[simp] theorem raw_mark (c : Char) : (mark c).raw = String.singleton c := rfl

@[simp] theorem raw_name (text : String) : (name text).raw = text := rfl

@[simp] theorem raw_keyword (word : String) : (keyword word).raw = word := rfl

@[simp] theorem raw_operator (symbol : String) : (operator symbol).raw = symbol := rfl

@[simp] theorem raw_arrow (block : Bool) : (arrow block).raw = "=>" := rfl

@[simp] theorem raw_symbol (op : String) : (symbol op).raw = op := by
  unfold symbol
  split <;> rfl

theorem lexeme_symbol (op : String) :
    (symbol op).lexeme = .operator op ∨ (symbol op).lexeme = .keyword op := by
  unfold symbol
  split
  · exact .inr rfl
  · exact .inl rfl

end Piece

/-- The place of everything that has no place. -/
def Source.Place.nowhere : Place := ⟨0, ⟨0, 0⟩⟩

def Source.Span.nowhere : Span := ⟨.nowhere, .nowhere⟩

def Piece.token (p : Piece) : Token :=
  ⟨p.lexeme, p.raw, false, .nowhere⟩

/-- The input with the tokens of the pieces. -/
def tape (ps : List Piece) : Input :=
  ⟨.nowhere, ps.map Piece.token, .nowhere⟩

section
variable (p : Piece) (ps : List Piece)

@[simp] theorem skip_tape : (tape (p :: ps)).skip = tape ps := rfl

@[simp] theorem lexeme?_tape_nil : (tape []).lexeme? = none := rfl

@[simp] theorem lexeme?_tape_cons : (tape (p :: ps)).lexeme? = some p.lexeme := rfl

@[simp] theorem here_tape : (tape ps).here = .nowhere := by
  cases ps <;> rfl

@[simp] theorem spanFrom_tape : (tape ps).spanFrom .nowhere = .nowhere := rfl

@[simp] theorem nowhere_to : Span.to .nowhere .nowhere = .nowhere := rfl

@[simp] theorem atMark_tape_nil (c : Char) : (tape []).atMark c = false := rfl

@[simp] theorem atMark_tape_cons (c : Char) : (tape (p :: ps)).atMark c = p.lexeme.isMark c := rfl

@[simp] theorem atOperator_tape_nil (symbol : String) : (tape []).atOperator symbol = false := rfl

@[simp] theorem atOperator_tape_cons (symbol : String) :
    (tape (p :: ps)).atOperator symbol = p.lexeme.isOperator symbol := rfl

@[simp] theorem atKeyword_tape_nil (word : String) : (tape []).atKeyword word = false := rfl

@[simp] theorem atKeyword_tape_cons (word : String) :
    (tape (p :: ps)).atKeyword word = p.lexeme.isKeyword word := rfl

@[simp] theorem atNewline_tape : (tape ps).atNewline = false := by
  cases ps <;> rfl

end

/-! ## Grip -/

/-- The level of a binary operator that groups to the left, in the numbers of `Precedence`. -/
def binaryGrip (op : String) : Nat :=
  match Operator.levels.findIdx? (·.operators.contains op) with
  | some d => Precedence.loosestBinary + d
  | none => 0

/-- The level of the phrases that an operator behind an operand makes. -/
def operatorGrip (op : String) : Nat :=
  if op = "?." then Precedence.call
  else if Operator.update.contains op then Precedence.postfixed
  else if op = Operator.power then Precedence.power
  else if op = "?" then Precedence.conditional
  else if op = "=>" ∨ Operator.assignment.contains op then Precedence.assignment
  else binaryGrip op

def Lexeme.grip : Lexeme → Nat
  | .mark c =>
    if c = '.' ∨ c = '[' ∨ c = '(' then Precedence.call
    else if c = ',' then Precedence.sequence else 0
  | .operator op => operatorGrip op
  | .keyword word => binaryGrip word
  | .name _ | .text _ | .number _ | .fault _ => 0

/-- A phrase of the level `m` ends before these pieces. -/
def Stops (m : Nat) : List Piece → Prop
  | [] => True
  | p :: _ => p.lexeme.grip < m

theorem Stops.mono {m n : Nat} {ps : List Piece} (h : Stops m ps) (hmn : m ≤ n) :
    Stops n ps := by
  cases ps with
  | nil => trivial
  | cons p ps => exact Nat.lt_of_lt_of_le h hmn

theorem grip_of_update {op : String} (h : op ∈ Operator.update) :
    (Lexeme.operator op).grip = Precedence.postfixed := by
  revert op
  decide

theorem grip_of_assignment {op : String} (h : op ∈ Operator.assignment) :
    (Lexeme.operator op).grip = Precedence.assignment := by
  revert op
  decide

theorem lt_length_of_drop {d : Nat} {level : Level} {tighter : List Level}
    (h : Operator.levels.drop d = level :: tighter) : d < 10 := by
  have hl := congrArg List.length h
  rw [List.length_drop, List.length_cons] at hl
  have : Operator.levels.length = 10 := rfl
  omega

theorem grip_of_level {d : Nat} {level : Level} {tighter : List Level}
    (h : Operator.levels.drop d = level :: tighter) {op : String} (ho : op ∈ level.operators) :
    (Lexeme.operator op).grip = 4 + d ∧ (Lexeme.keyword op).grip = 4 + d := by
  have table : ∀ d < 10, ∀ level ∈ (Operator.levels.drop d).head?, ∀ op ∈ level.operators,
      (Lexeme.operator op).grip = 4 + d ∧ (Lexeme.keyword op).grip = 4 + d := by
    decide
  exact table d (lt_length_of_drop h) level (by rw [h]; rfl) op ho

/-! ## Where phrases stop -/

namespace Stops
open Production

variable {ps : List Piece}

/-- The lexeme that comes next does not grip as tight as the phrase. -/
theorem grip_lt {m : Nat} (h : Stops m ps) {lexeme : Lexeme}
    (hl : (tape ps).lexeme? = some lexeme) : lexeme.grip < m := by
  cases ps with
  | nil => cases hl
  | cons p ps => cases hl; exact h

theorem atLink (h : Stops Precedence.call ps) : Production.atLink (tape ps) = false := by
  cases ho : Production.atLink (tape ps) with
  | false => rfl
  | true =>
    simp only [Production.atLink, Bool.or_eq_true, Input.atMark_iff, Input.atOperator_iff] at ho
    obtain ((hl | hl) | hl) | hl := ho <;>
    · have hg := h.grip_lt hl
      revert hg
      decide

theorem update (h : Stops Precedence.postfixed ps) :
    operatorOf? Operator.update (tape ps) = none := by
  cases ho : operatorOf? Operator.update (tape ps) with
  | none => rfl
  | some op =>
    obtain ⟨hl, hm⟩ := operatorOf?_eq_some_iff.1 ho
    exact absurd (grip_of_update hm) (Nat.ne_of_lt (h.grip_lt hl))

theorem power (h : Stops Precedence.power ps) :
    (tape ps).atOperator Operator.power = false := by
  cases ho : (tape ps).atOperator Operator.power with
  | false => rfl
  | true =>
    have hg := h.grip_lt (Input.atOperator_iff.1 ho)
    revert hg
    decide

theorem level {d : Nat} {level : Level} {tighter : List Level} (h : Stops (4 + d) ps)
    (hd : Operator.levels.drop d = level :: tighter) :
    binaryOf? level.operators (tape ps) = none := by
  cases ho : binaryOf? level.operators (tape ps) with
  | none => rfl
  | some op =>
    obtain ⟨hl, hm⟩ := binaryOf?_eq_some_iff.1 ho
    obtain ⟨hg, hk⟩ := grip_of_level hd hm
    obtain hl | hl := hl
    · exact absurd hg (Nat.ne_of_lt (h.grip_lt hl))
    · exact absurd hk (Nat.ne_of_lt (h.grip_lt hl))

theorem choice (h : Stops Precedence.conditional ps) :
    (tape ps).atOperator "?" = false := by
  cases ho : (tape ps).atOperator "?" with
  | false => rfl
  | true =>
    have hg := h.grip_lt (Input.atOperator_iff.1 ho)
    revert hg
    decide

theorem assignment (h : Stops Precedence.assignment ps) :
    operatorOf? Operator.assignment (tape ps) = none := by
  cases ho : operatorOf? Operator.assignment (tape ps) with
  | none => rfl
  | some op =>
    obtain ⟨hl, hm⟩ := operatorOf?_eq_some_iff.1 ho
    exact absurd (grip_of_assignment hm) (Nat.ne_of_lt (h.grip_lt hl))

theorem comma (h : Stops Precedence.sequence ps) : (tape ps).atMark ',' = false := by
  cases ho : (tape ps).atMark ',' with
  | false => rfl
  | true =>
    have hg := h.grip_lt (Input.atMark_iff.1 ho)
    revert hg
    decide

end Stops

end TemplateExpr
