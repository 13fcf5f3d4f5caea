/-
  Pieces that read as an expression at a level of binding, and at every looser one. A tape of
  such pieces can stand wherever the grammar wants an expression of one of these levels.

  The levels are those of `Precedence`. At the levels that group to the left, and for members
  and calls, the grammar grows the tree from its leftmost operand; there `Fits` says what the
  pieces do in front of whatever grows from them.

  * `Reading.lower`: what reads at a level reads at the next looser one.
  * `Reading.nested`: the brackets of such pieces come in pairs.
-/
import TemplateExpr.Proofs.Grammar.Brackets
import TemplateExpr.Proofs.Printing.Tape

namespace TemplateExpr
open Source (Place Span)
open Operator (Level)
open Production

/-! ## How expressions begin -/

/-- The lexeme may begin an expression. -/
def Lexeme.begins : Lexeme → Bool
  | .mark c => c == '(' || c == '[' || c == '{'
  | .name _ | .text _ | .number _ => true
  | .keyword word =>
    ["true", "false", "null", "this", "function"].contains word ||
      Operator.unaryWords.contains word
  | .operator op => Operator.unary.contains op || Operator.update.contains op
  | .fault _ => false

/-- The lexeme may begin an expression that no prefix operator binds looser than. -/
def Lexeme.beginsOperand : Lexeme → Bool
  | .mark c => c == '(' || c == '[' || c == '{'
  | .name _ | .text _ | .number _ => true
  | .keyword word => ["true", "false", "null", "this", "function"].contains word
  | .operator _ | .fault _ => false

/-- The pieces begin like an expression of the level `m`. -/
def Begins (m : Nat) : List Piece → Prop
  | [] => False
  | p :: _ => p.lexeme.begins = true ∧
    (Precedence.postfixed ≤ m → p.lexeme.beginsOperand = true)

namespace Begins

variable {m : Nat} {ps rest : List Piece}

theorem mono {l : Nat} (h : Begins m ps) (hl : l ≤ m) : Begins l ps := by
  cases ps with
  | nil => exact h
  | cons p ps => exact ⟨h.1, fun hp => h.2 (Nat.le_trans hp hl)⟩

theorem append (h : Begins m ps) (rest : List Piece) : Begins m (ps ++ rest) := by
  cases ps with
  | nil => exact absurd h id
  | cons p ps => exact h

theorem atMark {c : Char} (h : Begins m ps) (hc : (Lexeme.mark c).begins = false)
    (rest : List Piece) : (tape (ps ++ rest)).atMark c = false := by
  cases ps with
  | nil => exact absurd h id
  | cons p ps =>
    cases ha : (tape (p :: ps ++ rest)).atMark c with
    | false => rfl
    | true =>
      rw [List.cons_append, atMark_tape_cons, Lexeme.isMark_iff] at ha
      rw [← ha, h.1] at hc
      cases hc

theorem atKeyword_return (h : Begins m ps) (rest : List Piece) :
    (tape (ps ++ rest)).atKeyword "return" = false := by
  cases ps with
  | nil => exact absurd h id
  | cons p ps =>
    cases ha : (tape (p :: ps ++ rest)).atKeyword "return" with
    | false => rfl
    | true =>
      rw [List.cons_append, atKeyword_tape_cons, Lexeme.isKeyword_iff] at ha
      have hb := h.1
      rw [ha] at hb
      revert hb
      decide

theorem noPrefix (h : Begins m ps) (hm : Precedence.postfixed ≤ m) (rest : List Piece) :
    operatorOf? Operator.update (tape (ps ++ rest)) = none ∧
      unaryOf? (tape (ps ++ rest)) = none := by
  cases ps with
  | nil => exact absurd h id
  | cons p ps =>
    have hb := h.2 hm
    constructor
    · cases ho : operatorOf? Operator.update (tape (p :: ps ++ rest)) with
      | none => rfl
      | some op =>
        obtain ⟨hl, -⟩ := operatorOf?_eq_some_iff.1 ho
        rw [List.cons_append, lexeme?_tape_cons, Option.some.injEq] at hl
        rw [hl] at hb
        cases hb
    · cases ho : unaryOf? (tape (p :: ps ++ rest)) with
      | none => rfl
      | some op =>
        obtain ⟨hl, -⟩ | ⟨hl, hm⟩ := unaryOf?_eq_some_iff.1 ho
        · rw [List.cons_append, lexeme?_tape_cons, Option.some.injEq] at hl
          rw [hl] at hb
          cases hb
        · rw [List.cons_append, lexeme?_tape_cons, Option.some.injEq] at hl
          have words : ∀ word ∈ Operator.unaryWords,
              (Lexeme.keyword word).beginsOperand = false := by decide
          rw [hl, words op hm] at hb
          cases hb

end Begins

/-- The pieces are not taken for the parameters of an arrow function, unless `=>` follows. -/
def NoArrow (ps : List Piece) : Prop :=
  ∀ rest, (tape rest).atOperator "=>" = false → atArrow (tape (ps ++ rest)) = false

/-! ## Levels -/

/-- The pieces are the leftmost operand of what the levels from the given one on grow. -/
def Climbs (ps : List Piece) (e : Expr) (d : Nat) : Prop :=
  ∀ level tighter, Operator.levels.drop d = level :: tighter →
    ∀ rest r j, Stops (4 + d + 1) rest → Reads (.climb level tighter e) (tape rest) r j →
      Reads (.ladder (level :: tighter)) (tape (ps ++ rest)) r j

/-- The pieces read as the expression where the grammar wants one of the level. -/
def Fits (ps : List Piece) (e : Expr) : Nat → Prop
  | 0 => True
  | 1 => ∀ rest, Stops Precedence.sequence rest →
    Reads .sequence (tape (ps ++ rest)) e (tape rest)
  | 2 => ∀ rest, Stops Precedence.assignment rest →
    Reads .assignment (tape (ps ++ rest)) e (tape rest)
  -- The last operand of a conditional takes an assignment with it.
  | 3 => ∀ rest, Stops Precedence.assignment rest →
    Reads .conditional (tape (ps ++ rest)) e (tape rest)
  | 14 => ∀ rest, Stops Precedence.power rest →
    Reads .power (tape (ps ++ rest)) e (tape rest)
  | 15 => ∀ rest, Stops Precedence.unary rest →
    Reads .prefixed (tape (ps ++ rest)) e (tape rest)
  | 16 => ∀ rest, Stops Precedence.postfixed rest →
    Reads .postfixed (tape (ps ++ rest)) e (tape rest)
  | 17 => ∀ rest r j, Reads (.links e) (tape rest) r j →
    Reads .chain (tape (ps ++ rest)) r j
  | 18 => ∀ rest, Reads .primary (tape (ps ++ rest)) e (tape rest)
  | d + 4 => Climbs ps e d

/-- The pieces read as the expression at the level `m`. -/
structure Reading (ps : List Piece) (e : Expr) (m : Nat) : Prop where
  level_le : m ≤ Precedence.atom
  span : e.span = .nowhere
  begins : Begins m ps
  noArrow : Precedence.conditional ≤ m → NoArrow ps
  fits : Fits ps e m

section
variable {ps : List Piece} {e : Expr}

theorem climbs_lower {d : Nat} (h : Climbs ps e (d + 1)) (hd : d < 9) : Climbs ps e d := by
  intro level tighter hl rest r j hs hr
  have ht : tighter = Operator.levels.drop (d + 1) := by
    rw [← List.drop_drop, hl]
    rfl
  have hs' : Stops (4 + (d + 1)) rest := hs
  refine .ladderStep ?_ hr
  cases hc : tighter with
  | nil =>
    rw [hc] at ht
    have := congrArg List.length ht
    rw [List.length_drop, List.length_nil] at this
    have : Operator.levels.length = 10 := rfl
    omega
  | cons level' tighter' =>
    rw [hc] at ht
    exact h level' tighter' ht.symm rest e (tape rest) (hs'.mono (Nat.le_succ _))
      (.climbStop (hs'.level ht.symm))

theorem climbs_of_power (h : Fits ps e 14) : Climbs ps e 9 := by
  intro level tighter hl rest r j hs hr
  obtain ⟨-, rfl⟩ := List.cons.inj hl
  exact .ladderStep (.ladderTop (h rest hs)) hr

theorem conditional_of_climbs (h : Climbs ps e 0) {rest : List Piece}
    (hs : Stops Precedence.conditional rest) :
    Reads .conditional (tape (ps ++ rest)) e (tape rest) := by
  have hl : ∃ level tighter, Operator.levels.drop 0 = level :: tighter := ⟨_, _, rfl⟩
  obtain ⟨level, tighter, hl⟩ := hl
  have hs' : Stops (4 + 0) rest := hs.mono (by decide)
  have hr := h level tighter hl rest e (tape rest) (hs'.mono (Nat.le_succ _))
    (.climbStop (hs'.level hl))
  rw [← hl] at hr
  exact .noConditional hr hs.choice

theorem Fits.lower {m : Nat} (h : Fits ps e (m + 1)) (hm : m + 1 ≤ Precedence.atom)
    (hb : Begins (m + 1) ps) (ha : Precedence.conditional ≤ m + 1 → NoArrow ps) :
    Fits ps e m := by
  match m with
  | 0 => trivial
  | 1 =>
    intro rest hs
    exact .single (h rest (hs.mono (by decide))) (.othersNone hs.comma)
  | 2 =>
    intro rest hs
    have hg : (tape rest).atOperator "=>" = false := by
      cases ho : (tape rest).atOperator "=>" with
      | false => rfl
      | true =>
        have hg := hs.grip_lt (Input.atOperator_iff.1 ho)
        revert hg
        decide
    exact .noAssignment (ha (by decide) rest hg) (h rest hs) hs.assignment
  | 3 =>
    intro rest hs
    exact conditional_of_climbs h (hs.mono (by decide))
  | 4 | 5 | 6 | 7 | 8 | 9 | 10 | 11 | 12 => exact climbs_lower h (by decide)
  | 13 => exact climbs_of_power h
  | 14 =>
    intro rest hs
    exact .noPower (h rest (hs.mono (by decide))) hs.power
  | 15 =>
    intro rest hs
    obtain ⟨hu, hp⟩ := hb.noPrefix (Nat.le_refl _) rest
    exact .noPrefix hu hp (h rest (hs.mono (by decide)))
  | 16 =>
    intro rest hs
    exact .noTrailing (h rest e _ (.linksNone (hs.mono (by decide)).atLink)) (.inl hs.update)
  | 17 =>
    intro rest r j hr
    exact .chain (h rest) hr
  | m + 18 => exact absurd hm (by simp [Precedence.atom])

/-- What reads at a level reads at the next looser one. -/
theorem Reading.lower {m : Nat} (h : Reading ps e (m + 1)) : Reading ps e m where
  level_le := Nat.le_of_succ_le h.level_le
  span := h.span
  begins := h.begins.mono (Nat.le_succ m)
  noArrow hm := h.noArrow (Nat.le_succ_of_le hm)
  fits := h.fits.lower h.level_le h.begins h.noArrow

theorem Reading.loosen {m l : Nat} (h : Reading ps e m) (hl : l ≤ m) : Reading ps e l := by
  induction m with
  | zero => rw [Nat.le_zero.1 hl]; exact h
  | succ m ih =>
    obtain rfl | hl := Nat.eq_or_lt_of_le hl
    · exact h
    · exact ih h.lower (Nat.le_of_lt_succ hl)

end

namespace Reading

variable {ps rest : List Piece} {e : Expr} {m : Nat}

theorem sequence (h : Reading ps e m) (hm : Precedence.sequence ≤ m)
    (hs : Stops Precedence.sequence rest) : Reads .sequence (tape (ps ++ rest)) e (tape rest) :=
  (h.loosen hm).fits rest hs

theorem assignment (h : Reading ps e m) (hm : Precedence.assignment ≤ m)
    (hs : Stops Precedence.assignment rest) :
    Reads .assignment (tape (ps ++ rest)) e (tape rest) :=
  (h.loosen hm).fits rest hs

theorem conditional (h : Reading ps e m) (hm : Precedence.loosestBinary ≤ m)
    (hs : Stops Precedence.conditional rest) :
    Reads .conditional (tape (ps ++ rest)) e (tape rest) :=
  conditional_of_climbs (h.loosen hm).fits hs

theorem power (h : Reading ps e m) (hm : Precedence.power ≤ m)
    (hs : Stops Precedence.power rest) : Reads .power (tape (ps ++ rest)) e (tape rest) :=
  (h.loosen hm).fits rest hs

theorem prefixed (h : Reading ps e m) (hm : Precedence.unary ≤ m)
    (hs : Stops Precedence.unary rest) : Reads .prefixed (tape (ps ++ rest)) e (tape rest) :=
  (h.loosen hm).fits rest hs

theorem links (h : Reading ps e m) (hm : Precedence.call ≤ m) {r : Expr} {j : Input}
    (hr : Reads (.links e) (tape rest) r j) : Reads .chain (tape (ps ++ rest)) r j :=
  (h.loosen hm).fits rest r j hr

theorem climbs {d : Nat} (h : Reading ps e m) (hm : 4 + d ≤ m) (hd : d < 10) :
    Climbs ps e d := by
  have hf := (h.loosen hm).fits
  match d with
  | 0 | 1 | 2 | 3 | 4 | 5 | 6 | 7 | 8 | 9 => exact hf
  | d + 10 => exact absurd hd (by omega)

/-- What the ladder reads from a level on. -/
theorem ladder {d : Nat} (h : Reading ps e m) (hm : 4 + d ≤ m) (hd : d ≤ 10)
    (hs : Stops (4 + d) rest) :
    Reads (.ladder (Operator.levels.drop d)) (tape (ps ++ rest)) e (tape rest) := by
  cases hl : Operator.levels.drop d with
  | nil =>
    have := congrArg List.length hl
    rw [List.length_drop, List.length_nil] at this
    have : Operator.levels.length = 10 := rfl
    obtain rfl : d = 10 := by omega
    exact .ladderTop (h.power hm hs)
  | cons level tighter =>
    exact h.climbs hm (lt_length_of_drop hl) level tighter hl rest e (tape rest)
      (hs.mono (Nat.le_succ _)) (.climbStop (hs.level hl))

/-- The brackets of pieces that read as an expression come in pairs. -/
theorem nested (h : Reading ps e m) (hm : Precedence.sequence ≤ m) :
    Nested (ps.map Piece.token) := by
  have hs : Stops Precedence.sequence [] := trivial
  obtain ⟨tokens, ht, hn⟩ := nests_of_reads (h.sequence hm hs)
  rw [List.append_nil] at ht
  simp only [tape, List.map_nil, List.append_nil] at ht
  rw [ht]
  exact hn

end Reading

end TemplateExpr
