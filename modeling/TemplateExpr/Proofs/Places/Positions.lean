/-
  The position of an offset against the characters in front of it. Lines are counted by what ends
  them, columns by the characters behind the last end of a line. The positions of a text ascend
  with the offsets, and only between a carriage return and its line feed they stand still.

  * `positionAt_succ`: the position behind one more character.
  * `line_positionAt`, `column_positionAt`: lines and columns, counted in the text.
  * `key_le_succ`, `key_lt_succ`: what one character does to the order of positions.
  * `positionAt_exact`: all of it, with the offsets behind the end of the text.
-/
import Mathlib.Data.List.DropRight
import Mathlib.Data.Nat.Count
import Mathlib.Data.Prod.Lex
import TemplateExpr.Source.Position

namespace TemplateExpr.Source
open Text

/-! ## Ends of lines -/

/-- The characters that end a line. -/
def lineEnds : List Char :=
  ['\n', '\r', '\u2028', '\u2029']

theorem contains_lineEnds (c : Char) : lineEnds.contains c = isNewline c := by
  simp [lineEnds, isNewline, Bool.or_assoc, beq_eq_decide]

/-- The line feed of a carriage return: the two of them end one line, which the carriage return
    has ended already. -/
def FeedsReturn (text : List Char) (i : Nat) : Prop :=
  0 < i ∧ text[i - 1]? = some '\r' ∧ text[i]? = some '\n'

instance (text : List Char) : DecidablePred (FeedsReturn text) :=
  fun _ => inferInstanceAs (Decidable (_ ∧ _ ∧ _))

/-- A line ends with the character at the index. -/
def EndsLine (text : List Char) (i : Nat) : Prop :=
  text[i]?.any lineEnds.contains = true ∧ ¬FeedsReturn text i

instance (text : List Char) : DecidablePred (EndsLine text) :=
  fun _ => inferInstanceAs (Decidable (_ ∧ ¬_))

/-- Positions are ordered by their lines, and on one line by their columns. -/
def Position.key (p : Position) : Nat ×ₗ Nat :=
  toLex (p.line, p.column)

section
variable {text : List Char} {i j : Nat} {c : Char}

/-- The character behind such a line feed is not another one. -/
theorem FeedsReturn.not_succ (h : FeedsReturn text i) : ¬FeedsReturn text (i + 1) := by
  rintro ⟨-, hr, -⟩
  rw [Nat.add_sub_cancel, h.2.2] at hr
  cases hr

theorem endsLine_iff (h : text[i]? = some c) :
    EndsLine text i ↔ isNewline c = true ∧ ¬FeedsReturn text i := by
  rw [EndsLine, h, Option.any_some, contains_lineEnds]

/-! ## One more character -/

theorem Cursor.past_take_succ (cursor : Cursor) (h : text[i]? = some c) :
    cursor.past (text.take (i + 1)) = (cursor.past (text.take i)).step c := by
  rw [List.take_add_one, h, Option.toList_some, past_append]
  rfl

/-- The cursor knows whether it stands behind a carriage return. -/
theorem Cursor.previous_past_take (h : text[i]? = some c) :
    (origin.past (text.take i)).previous = '\r' ↔ 0 < i ∧ text[i - 1]? = some '\r' := by
  cases i with
  | zero => simp [origin]
  | succ i =>
    obtain ⟨hi, -⟩ := List.getElem?_eq_some_iff.1 h
    have hd : text[i]? = some (text.get ⟨i, by omega⟩) := List.getElem?_eq_getElem _
    rw [past_take_succ origin hd, Nat.add_sub_cancel, hd, Option.some.injEq]
    simp [step]

/-- The position behind a character of the text. -/
theorem positionAt_succ (h : text[i]? = some c) :
    positionAt text (i + 1) =
      if FeedsReturn text i then positionAt text i
      else if isNewline c then ⟨(positionAt text i).line + 1, 0⟩
      else ⟨(positionAt text i).line, (positionAt text i).column + 1⟩ := by
  have hfeeds : c = '\n' ∧ (Cursor.origin.past (text.take i)).previous = '\r' ↔
      FeedsReturn text i := by
    rw [Cursor.previous_past_take h, FeedsReturn, h, Option.some.injEq]
    exact ⟨fun ⟨hc, hi, hr⟩ => ⟨hi, hr, hc⟩, fun ⟨hi, hr, hc⟩ => ⟨hc, hi, hr⟩⟩
  rw [positionAt, Cursor.past_take_succ Cursor.origin h, Cursor.step, Position.after,
    ← positionAt]
  simp only [hfeeds]

theorem positionAt_succ_of_none (h : text[i]? = none) :
    positionAt text (i + 1) = positionAt text i := by
  rw [positionAt, List.take_add_one, h, Option.toList_none, List.append_nil, ← positionAt]

/-! ## Lines and columns -/

/-- The first line, and one more for each end of a line in front of the offset. -/
theorem line_positionAt (text : List Char) (i : Nat) :
    (positionAt text i).line = 1 + Nat.count (EndsLine text) i := by
  induction i with
  | zero => rfl
  | succ i ih =>
    rw [Nat.count_succ, ← Nat.add_assoc, ← ih]
    cases h : text[i]? with
    | none =>
      have hnot : ¬EndsLine text i := by simp [EndsLine, h]
      rw [positionAt_succ_of_none h, if_neg hnot, Nat.add_zero]
    | some c =>
      rw [positionAt_succ h]
      simp only [endsLine_iff h]
      by_cases hf : FeedsReturn text i
      · simp [hf]
      · cases hc : isNewline c <;> simp [hf]

/-- The characters behind the last end of a line in front of the offset. -/
theorem column_positionAt (text : List Char) (i : Nat) :
    (positionAt text i).column =
      ((text.take i).rtakeWhile fun c => !lineEnds.contains c).length := by
  induction i with
  | zero => rfl
  | succ i ih =>
    simp only [contains_lineEnds] at ih ⊢
    cases h : text[i]? with
    | none =>
      rw [positionAt_succ_of_none h, ih, List.take_add_one, h, Option.toList_none,
        List.append_nil]
    | some c =>
      rw [positionAt_succ h, List.take_add_one, h, Option.toList_some]
      by_cases hf : FeedsReturn text i
      · -- both characters end a line, so nothing stands behind either of them
        obtain ⟨hi, hr, hn⟩ := hf
        obtain ⟨k, rfl⟩ : ∃ k, i = k + 1 := ⟨i - 1, by omega⟩
        obtain rfl : c = '\n' := Option.some.inj (h.symm.trans hn)
        rw [Nat.add_sub_cancel] at hr
        rw [if_pos ⟨hi, hr, hn⟩, ih, List.take_add_one, hr, Option.toList_some,
          List.rtakeWhile_concat_neg _ _ _ (by decide), List.rtakeWhile_concat_neg _ _ _ (by decide)]
      · rw [if_neg hf]
        cases hc : isNewline c with
        | true => simp [hc]
        | false => simp [hc, ih]

/-! ## The order of positions -/

theorem key_lt_succ (h : text[i]? = some c) (hf : ¬FeedsReturn text i) :
    (positionAt text i).key < (positionAt text (i + 1)).key := by
  rw [positionAt_succ h, if_neg hf, Position.key, Position.key, Prod.Lex.toLex_lt_toLex]
  split
  · exact .inl (Nat.lt_succ_self _)
  · exact .inr ⟨rfl, Nat.lt_succ_self _⟩

theorem key_le_succ (text : List Char) (i : Nat) :
    (positionAt text i).key ≤ (positionAt text (i + 1)).key := by
  cases h : text[i]? with
  | none => rw [positionAt_succ_of_none h]
  | some c =>
    by_cases hf : FeedsReturn text i
    · rw [positionAt_succ h, if_pos hf]
    · exact (key_lt_succ h hf).le

theorem monotone_key (text : List Char) : Monotone fun i => (positionAt text i).key :=
  monotone_nat_of_le_succ (key_le_succ text)

/-- If two offsets have one position, a line feed that belongs to a carriage return stands at the
    first of them, and at every offset up to the second. -/
theorem feedsReturn_of_positionAt_eq (h : i < j) (hj : j ≤ text.length)
    (he : positionAt text i = positionAt text j) : FeedsReturn text i := by
  by_contra hf
  have hc : text[i]? = some (text.get ⟨i, by omega⟩) := List.getElem?_eq_getElem _
  have hlt := (key_lt_succ hc hf).trans_le (monotone_key text (Nat.succ_le_of_lt h))
  dsimp only at hlt
  rw [he] at hlt
  exact lt_irrefl _ hlt

/-- Two offsets of a text have one position only on both sides of such a line feed. -/
theorem positionAt_eq_iff (h : i < j) (hj : j ≤ text.length) :
    positionAt text i = positionAt text j ↔ j = i + 1 ∧ FeedsReturn text i := by
  constructor
  · intro he
    have hf := feedsReturn_of_positionAt_eq h hj he
    refine ⟨?_, hf⟩
    by_contra hne
    have hc : text[i]? = some (text.get ⟨i, by omega⟩) := List.getElem?_eq_getElem _
    have hsucc : positionAt text (i + 1) = positionAt text j := by
      rw [positionAt_succ hc, if_pos hf, he]
    exact hf.not_succ (feedsReturn_of_positionAt_eq (by omega) hj hsucc)
  · rintro ⟨rfl, hf⟩
    rw [positionAt_succ hf.2.2, if_pos hf]

end

/-! ## All positions of a text -/

/-- The position of an offset is its line and its column in the text; positions ascend with the
    offsets, and two offsets share one only around the line feed of a carriage return; and behind
    the end of the text there is only the position of its end. -/
theorem positionAt_exact (text : List Char) :
    (∀ i, (positionAt text i).line = 1 + Nat.count (EndsLine text) i ∧
      (positionAt text i).column = ((text.take i).rtakeWhile fun c => !lineEnds.contains c).length) ∧
    (Monotone fun i => (positionAt text i).key) ∧
    (∀ i j, i < j → j ≤ text.length →
      (positionAt text i = positionAt text j ↔ j = i + 1 ∧ FeedsReturn text i)) ∧
    ∀ i, text.length ≤ i → positionAt text i = positionAt text text.length :=
  ⟨fun i => ⟨line_positionAt text i, column_positionAt text i⟩, monotone_key text,
    fun _ _ h hj => positionAt_eq_iff h hj, fun _ h => positionAt_of_length_le h⟩

/-- Two returns and two feeds end three lines: the first feed belongs to the second return. -/
theorem positionAt_exact_returns :
    positionAt "\r\r\n\n".toList 2 = positionAt "\r\r\n\n".toList 3 ∧
      (positionAt "\r\r\n\n".toList 4).line = 1 + Nat.count (EndsLine "\r\r\n\n".toList) 4 ∧
      positionAt "\r\r\n\n".toList 9 = positionAt "\r\r\n\n".toList 4 :=
  have h := positionAt_exact "\r\r\n\n".toList
  ⟨(h.2.2.1 2 3 (by decide) (by decide)).2 ⟨rfl, by decide⟩, (h.1 4).1, h.2.2.2 9 (by decide)⟩

end TemplateExpr.Source
