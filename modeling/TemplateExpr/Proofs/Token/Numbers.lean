/-
  A number is read the same alone as in front of more text, unless the text goes on with a part
  of a name, or with a point behind digits only.

  * `read_take`: the characters of a number, by themselves, are that number.
  * `read_append`: a number by itself is the same number in front of another text.
-/
import TemplateExpr.Token.Number

namespace TemplateExpr
open Text

/-! ## Characters of names -/

section
variable {c : Char}

theorem Text.Ranges.has_eq_false {table : Ranges} {low : Nat}
    (h : ∀ range ∈ table, low ≤ range.1) (hc : c.toNat < low) : table.has c = false := by
  rw [Bool.eq_false_iff, ne_eq, Ranges.has_eq_true_iff]
  rintro ⟨range, hm, hl, -⟩
  exact absurd (Nat.le_trans (h range hm) hl) (Nat.not_le_of_lt hc)

/-- The tables have nothing to say of the first 128 characters. -/
theorem Text.isNameStart_ascii (hc : c.toNat < 128) :
    isNameStart c = (c.isAlpha || c == '_' || c == '$') := by
  have table : ∀ range ∈ alphabeticRanges, 128 ≤ range.1 := by decide +kernel
  rw [isNameStart, isAlphabetic, Ranges.has_eq_false table hc, Bool.or_false]

theorem Text.isNamePart_ascii (hc : c.toNat < 128) :
    isNamePart c = (c.isAlpha || c == '_' || c == '$' || c.isDigit) := by
  have table : ∀ range ∈ numericRanges, 128 ≤ range.1 := by decide +kernel
  rw [isNamePart, isNameStart_ascii hc, isNumeric, Ranges.has_eq_false table hc, Bool.or_false]

theorem Text.isNamePart_of_isDigit (h : isDigit c = true) : isNamePart c = true := by
  have hn : isNumeric c = true := by
    rw [isDigit] at h
    rw [isNumeric, h, Bool.true_or]
  rw [isNamePart, hn, Bool.or_true]

theorem Text.isNameStart_of_isDigit (h : isDigit c = true) : isNameStart c = false := by
  have table : ∀ n < 58, 48 ≤ n → ((Char.ofNat n).isAlpha || Char.ofNat n == '_' ||
      Char.ofNat n == '$') = false := by decide
  rw [isDigit, Char.isDigit, Bool.and_eq_true, decide_eq_true_eq, decide_eq_true_eq] at h
  have hlow : 48 ≤ c.toNat := h.1
  have hhigh : c.toNat ≤ 57 := h.2
  rw [isNameStart_ascii (by omega), ← Char.ofNat_toNat c]
  exact table c.toNat (by omega) hlow

theorem Text.isNamePart_space : isNamePart ' ' = false := by
  rw [isNamePart_ascii (by decide)]
  rfl

theorem Text.isNamePart_open : isNamePart '(' = false := by
  rw [isNamePart_ascii (by decide)]
  rfl

/-- The letter or digit belongs to a number in some base. -/
theorem Text.isNamePart_of_digitBelow? {radix : Nat}
    (h : (digitBelow? radix c).isSome = true) : isNamePart c = true := by
  have hv : (digitValue? c).isSome = true := by
    rw [digitBelow?] at h
    cases hd : digitValue? c with
    | none => rw [hd] at h; cases h
    | some n => rfl
  unfold digitValue? at hv
  split at hv
  · next hd => exact isNamePart_of_isDigit hd
  · have ha : c.isAlpha = true := by
      refine Bool.or_eq_true_iff.2 ?_
      split at hv
      · next hl =>
        obtain ⟨hlow, hhigh⟩ := Bool.and_eq_true_iff.1 hl
        have hz : c.val ≤ 'z'.val := Nat.le_trans (of_decide_eq_true hhigh) (by decide)
        exact .inr (Bool.and_eq_true_iff.2 ⟨hlow, decide_eq_true hz⟩)
      · split at hv
        · next hu =>
          obtain ⟨hlow, hhigh⟩ := Bool.and_eq_true_iff.1 hu
          have hz : c.val ≤ 'Z'.val := Nat.le_trans (of_decide_eq_true hhigh) (by decide)
          exact .inl (decide_eq_true ⟨of_decide_eq_true hlow, hz⟩)
        · cases hv
    exact isNamePart_of_isNameStart (by rw [isNameStart, isAlphabetic_of_isAlpha ha]; rfl)

end

section
variable {cs ds : List Char}

/-- No part of a name comes next. -/
abbrev Text.NoName (ds : List Char) : Prop :=
  ds.head?.any isNamePart = false

theorem Text.any_eq_false_of_noName (h : NoName ds) {p : Char → Bool}
    (hp : ∀ c, p c = true → isNamePart c = true) : ds.head?.any p = false := by
  cases ds with
  | nil => rfl
  | cons d ds =>
    cases hd : p d with
    | false => exact hd
    | true => exact absurd (hp d hd) (by simpa [NoName] using h)

theorem Text.takeWhile_append_of_head {p : Char → Bool} (h : ds.head?.any p = false) :
    (cs ++ ds).takeWhile p = cs.takeWhile p := by
  have hd : ds.takeWhile p = [] := by
    cases ds with
    | nil => rfl
    | cons d ds => exact List.takeWhile_cons_of_neg (by simpa using h)
  rw [List.takeWhile_append, hd, List.append_nil]
  split
  · next hl => exact ((List.takeWhile_prefix p).eq_of_length hl).symm
  · rfl

/-- What is asked of the next character is answered the same, if it is not true of what comes
    behind the text. -/
theorem Text.any_head?_drop_append {p : Char → Bool} (h : ds.head?.any p = false) {n : Nat}
    (hn : n ≤ cs.length) : ((cs ++ ds).drop n).head?.any p = (cs.drop n).head?.any p := by
  rw [List.drop_append_of_le_length hn]
  cases cs.drop n with
  | nil => exact h
  | cons c more => rfl

/-- A class that takes all characters holds of all of them. -/
theorem all_of_takeWhile_length {p : Char → Bool} (h : (cs.takeWhile p).length = cs.length) :
    ∀ d ∈ cs, p d = true := by
  have heq := (List.takeWhile_sublist p).eq_of_length h
  rw [← heq]
  exact fun d hd => List.all_eq_true.1 List.all_takeWhile d hd

theorem of_mem_take_takeWhile {p : Char → Bool} {c : Char}
    (h : c ∈ cs.take (cs.takeWhile p).length) : p c = true := by
  rw [← List.prefix_iff_eq_take.1 (List.takeWhile_prefix p)] at h
  exact List.all_eq_true.1 List.all_takeWhile c h

end

namespace Number

variable {cs ds : List Char}

/-! ## The parts of a decimal number -/

theorem digitCount_take (n : Nat) (cs : List Char) :
    digitCount (cs.take n) = min n (digitCount cs) := by
  rw [digitCount, ← List.take_takeWhile, List.length_take, digitCount]

theorem digitCount_append (h : NoName ds) : digitCount (cs ++ ds) = digitCount cs := by
  rw [digitCount, takeWhile_append_of_head, digitCount]
  exact any_eq_false_of_noName h fun _ => isNamePart_of_isDigit

theorem digitCount_le (cs : List Char) : digitCount cs ≤ cs.length :=
  (List.takeWhile_sublist _).length_le

theorem fractionLength_point (cs : List Char) :
    fractionLength ('.' :: cs) = 1 + digitCount cs := rfl

theorem fractionLength_cons_of_ne {c : Char} (hc : c ≠ '.') (cs : List Char) :
    fractionLength (c :: cs) = 0 := by
  unfold fractionLength
  split
  · next h => exact absurd (List.cons.inj h).1 hc
  · rfl

theorem fractionLength_take (n : Nat) (cs : List Char) :
    fractionLength (cs.take n) = min n (fractionLength cs) := by
  match n, cs with
  | 0, cs => simp [fractionLength]
  | n + 1, [] => simp [fractionLength]
  | n + 1, c :: cs =>
    rw [List.take_succ_cons]
    by_cases hc : c = '.'
    · rw [hc, fractionLength_point, fractionLength_point, digitCount_take]
      omega
    · rw [fractionLength_cons_of_ne hc, fractionLength_cons_of_ne hc, Nat.min_zero]

theorem fractionLength_append (h : NoName ds) (hp : cs = [] → ds.head? ≠ some '.') :
    fractionLength (cs ++ ds) = fractionLength cs := by
  cases cs with
  | nil =>
    cases ds with
    | nil => rfl
    | cons d ds => exact fractionLength_cons_of_ne (fun hd => hp rfl (congrArg some hd)) ds
  | cons c cs =>
    rw [List.cons_append]
    by_cases hc : c = '.'
    · rw [hc, fractionLength_point, fractionLength_point, digitCount_append h]
    · rw [fractionLength_cons_of_ne hc, fractionLength_cons_of_ne hc]

theorem exponentMarkLength_take (n : Nat) (cs : List Char) :
    exponentMarkLength (cs.take n) = min n (exponentMarkLength cs) := by
  match n, cs with
  | 0, cs => simp [exponentMarkLength]
  | n + 1, [] => simp [exponentMarkLength]
  | 1, c :: cs => cases cs <;> simp only [List.take, exponentMarkLength] <;> split <;> grind
  | n + 2, [c] => simp only [List.take, exponentMarkLength]; split <;> omega
  | n + 2, c :: d :: cs =>
    simp only [List.take, exponentMarkLength]
    split
    · split <;> omega
    · omega

theorem exponentMarkLength_append (h : NoName ds)
    (hm : exponentMarkLength cs ≠ 0 → exponentMarkLength cs < cs.length) :
    exponentMarkLength (cs ++ ds) = exponentMarkLength cs := by
  match cs with
  | [] =>
    cases ds with
    | nil => rfl
    | cons d ds =>
      have letters : ['e', 'E'].all isNamePart = true := by decide
      have hd : ¬(d = 'e' ∨ d = 'E') := by
        intro hd
        have := List.all_eq_true.1 letters d (by simpa using hd)
        rw [NoName, List.head?_cons, Option.any_some, this] at h
        cases h
      simp only [List.nil_append, exponentMarkLength, if_neg hd]
  | [c] =>
    simp only [exponentMarkLength, List.singleton_append, List.length_singleton] at hm ⊢
    split
    · next hc => rw [if_pos hc] at hm; exact absurd (hm (by omega)) (by omega)
    · rfl
  | c :: d :: cs => rfl

namespace Layout

theorem length_le (cs : List Char) : (ofText cs).length ≤ cs.length := by
  have hw := digitCount_le cs
  have hf : fractionLength (cs.drop (digitCount cs)) ≤ (cs.drop (digitCount cs)).length := by
    have := fractionLength_take (cs.drop (digitCount cs)).length (cs.drop (digitCount cs))
    rw [List.take_length] at this
    omega
  have hm : ∀ ds : List Char, exponentMarkLength ds ≤ ds.length := fun ds => by
    have := exponentMarkLength_take ds.length ds
    rw [List.take_length] at this
    omega
  have hm := hm (cs.drop (digitCount cs + fractionLength (cs.drop (digitCount cs))))
  simp only [ofText, length]
  split
  · rw [List.length_drop] at hf hm; omega
  · have hp := digitCount_le (cs.drop (digitCount cs + fractionLength (cs.drop (digitCount cs)) +
      exponentMarkLength (cs.drop (digitCount cs + fractionLength (cs.drop (digitCount cs))))))
    rw [List.length_drop] at hf hm hp
    omega

/-- The characters of a number have the same parts by themselves. -/
theorem ofText_take (cs : List Char) : ofText (cs.take (ofText cs).length) = ofText cs := by
  have hw : (ofText cs).whole = digitCount cs := rfl
  have hf : (ofText cs).fraction = fractionLength (cs.drop (ofText cs).whole) := rfl
  have hm : (ofText cs).mark =
      exponentMarkLength (cs.drop ((ofText cs).whole + (ofText cs).fraction)) := rfl
  have hp : (ofText cs).power = if (ofText cs).mark = 0 then 0 else
      digitCount (cs.drop ((ofText cs).whole + (ofText cs).fraction + (ofText cs).mark)) := rfl
  have hl : (ofText cs).length = (ofText cs).whole + (ofText cs).fraction + (ofText cs).mark +
      (ofText cs).power := rfl
  generalize ofText cs = l at *
  obtain ⟨whole, fraction, mark, power⟩ := l
  dsimp only at hw hf hm hp hl
  have hw' : digitCount (cs.take (whole + fraction + mark + power)) = whole := by
    rw [digitCount_take, ← hw]
    omega
  have hf' : fractionLength ((cs.take (whole + fraction + mark + power)).drop whole) =
      fraction := by
    rw [List.drop_take, fractionLength_take, ← hf]
    omega
  have hm' : exponentMarkLength
      ((cs.take (whole + fraction + mark + power)).drop (whole + fraction)) = mark := by
    rw [List.drop_take, exponentMarkLength_take, ← hm]
    omega
  have hp' : (if mark = 0 then 0 else digitCount
      ((cs.take (whole + fraction + mark + power)).drop (whole + fraction + mark))) = power := by
    rw [List.drop_take, digitCount_take, hp]
    split <;> omega
  rw [hl, ofText]
  simp only [hw', hf', hm', hp']

theorem value_take (cs : List Char) :
    (ofText cs).value (cs.take (ofText cs).length) = (ofText cs).value cs := by
  generalize ofText cs = l
  obtain ⟨whole, fraction, mark, power⟩ := l
  simp only [value, length, List.take_take, List.drop_take]
  rw [Nat.min_eq_left (by omega : whole ≤ whole + fraction + mark + power),
    Nat.min_eq_left (by omega : fraction - 1 ≤ whole + fraction + mark + power - (whole + 1)),
    Nat.min_eq_left (by omega : mark ≤ whole + fraction + mark + power - (whole + fraction)),
    Nat.min_eq_left
      (by omega : power ≤ whole + fraction + mark + power - (whole + fraction + mark))]

theorem value_append (h : ofText (cs ++ ds) = ofText cs) :
    (ofText cs).value (cs ++ ds) = (ofText cs).value cs := by
  have hv := value_take (cs ++ ds)
  rw [h, List.take_append_of_le_length (length_le cs), value_take] at hv
  exact hv.symm

/-- A number keeps its parts when a text follows that the exponent mark does not go on with. -/
theorem ofText_append_of_mark (h : NoName ds) (hd : cs.all isDigit = true → ds.head? ≠ some '.')
    (hm : exponentMarkLength (cs.drop ((ofText cs).whole + (ofText cs).fraction) ++ ds) =
      (ofText cs).mark) : ofText (cs ++ ds) = ofText cs := by
  have hle : digitCount cs ≤ cs.length := digitCount_le cs
  have hlen : digitCount cs + fractionLength (cs.drop (digitCount cs)) + (ofText cs).mark ≤
      cs.length :=
    Nat.le_trans (Nat.le_add_right _ _) (length_le cs)
  have hempty : cs.drop (digitCount cs) = [] → ds.head? ≠ some '.' := by
    intro he
    refine hd ?_
    have hall : cs.takeWhile isDigit = cs :=
      (List.takeWhile_prefix _).eq_of_length
        (Nat.le_antisymm hle (List.drop_eq_nil_iff.1 he))
    rw [← hall]
    exact List.all_takeWhile
  have hmark : exponentMarkLength
      (cs.drop (digitCount cs + fractionLength (cs.drop (digitCount cs))) ++ ds) =
      (ofText cs).mark := hm
  simp only [ofText]
  rw [digitCount_append h, List.drop_append_of_le_length hle, fractionLength_append h hempty,
    List.drop_append_of_le_length (Nat.le_trans (Nat.le_add_right _ _) hlen), hmark,
    List.drop_append_of_le_length hlen, digitCount_append h]
  rfl

/-- A number that takes a whole text keeps its parts when another text follows. -/
theorem ofText_append (hl : (ofText cs).length = cs.length)
    (hp : (ofText cs).mark ≠ 0 → (ofText cs).power ≠ 0) (h : NoName ds)
    (hd : cs.all isDigit = true → ds.head? ≠ some '.') : ofText (cs ++ ds) = ofText cs := by
  refine ofText_append_of_mark h hd (exponentMarkLength_append h fun hm => ?_)
  have hm : (ofText cs).mark ≠ 0 := hm
  have hpos := hp hm
  have hl : (ofText cs).whole + (ofText cs).fraction + (ofText cs).mark + (ofText cs).power =
      cs.length := hl
  rw [List.length_drop]
  change (ofText cs).mark < _
  omega

end Layout

/-! ## Numbers -/

theorem readDecimal_le (cs : List Char) : (readDecimal cs).2 ≤ cs.length := by
  have := Layout.length_le cs
  unfold readDecimal
  dsimp only
  split
  · exact this
  · split <;> exact this

theorem readDecimal_take (h : (readDecimal cs).1.isFault = false) :
    readDecimal (cs.take (readDecimal cs).2) = readDecimal cs := by
  have hr : readDecimal cs = (.number ((Layout.ofText cs).value cs), (Layout.ofText cs).length) ∧
      ¬((Layout.ofText cs).mark ≠ 0 ∧ (Layout.ofText cs).power = 0) := by
    unfold readDecimal at h ⊢
    dsimp only at h ⊢
    split at h
    · cases h
    · next hm =>
      split at h
      · cases h
      · next hn => exact ⟨by rw [if_neg hm, if_neg hn], hm⟩
  obtain ⟨hr, hm⟩ := hr
  rw [hr]
  unfold readDecimal
  dsimp only
  rw [Layout.ofText_take, if_neg hm, Layout.value_take, List.drop_take, Nat.sub_self,
    List.take_zero]
  rfl

theorem readDecimal_append_of_layout (hn : NoName ds)
    (h : Layout.ofText (cs ++ ds) = Layout.ofText cs) : readDecimal (cs ++ ds) = readDecimal cs := by
  have hname : ds.head?.any isNameStart = false :=
    any_eq_false_of_noName hn fun _ => isNamePart_of_isNameStart
  unfold readDecimal
  dsimp only
  rw [h, Layout.value_append h, any_head?_drop_append hname (Layout.length_le cs)]

theorem readDecimal_append {lexeme : Lexeme} (h : readDecimal cs = (lexeme, cs.length))
    (hf : lexeme.isFault = false) (hn : NoName ds)
    (hd : cs.all isDigit = true → ds.head? ≠ some '.') :
    readDecimal (cs ++ ds) = readDecimal cs := by
  have hlen : (Layout.ofText cs).length = cs.length := by
    have := congrArg Prod.snd h
    unfold readDecimal at this
    dsimp only at this
    split at this
    · exact this
    · split at this <;> exact this
  have hm : ¬((Layout.ofText cs).mark ≠ 0 ∧ (Layout.ofText cs).power = 0) := by
    intro hm
    unfold readDecimal at h
    rw [if_pos hm] at h
    rw [← (Prod.mk.inj h).1] at hf
    cases hf
  exact readDecimal_append_of_layout hn
    (Layout.ofText_append hlen (fun hmark hpower => hm ⟨hmark, hpower⟩) hn hd)

theorem readRadix_le (radix : Nat) (cs : List Char) : (readRadix radix cs).2 ≤ 2 + cs.length := by
  have : (cs.takeWhile fun c => (digitBelow? radix c).isSome).length ≤ cs.length :=
    (List.takeWhile_sublist _).length_le
  unfold readRadix
  dsimp only
  split <;> simpa using this

theorem readRadix_take {radix : Nat} (h : (readRadix radix cs).1.isFault = false) :
    readRadix radix (cs.take ((readRadix radix cs).2 - 2)) = readRadix radix cs := by
  unfold readRadix at h ⊢
  dsimp only at h ⊢
  split at h
  · cases h
  · next hc =>
    rw [if_neg hc]
    simp only [Bool.or_eq_true, not_or] at hc
    simp only [Nat.add_sub_cancel_left]
    have ht : (cs.take (cs.takeWhile fun c => (digitBelow? radix c).isSome).length).takeWhile
        (fun c => (digitBelow? radix c).isSome) =
        cs.takeWhile fun c => (digitBelow? radix c).isSome := by
      rw [← List.take_takeWhile, List.take_length]
    rw [ht, if_neg]
    simp only [Bool.or_eq_true, not_or]
    refine ⟨hc.1, ?_⟩
    rw [List.drop_take, Nat.sub_self, List.take_zero]
    exact Bool.false_ne_true

theorem readRadix_append (hn : NoName ds) (radix : Nat) (cs : List Char) :
    readRadix radix (cs ++ ds) = readRadix radix cs := by
  have ht : ((cs ++ ds).takeWhile fun c => (digitBelow? radix c).isSome) =
      cs.takeWhile fun c => (digitBelow? radix c).isSome :=
    takeWhile_append_of_head (any_eq_false_of_noName hn fun _ => isNamePart_of_digitBelow?)
  unfold readRadix
  dsimp only
  rw [ht, any_head?_drop_append hn (List.takeWhile_sublist _).length_le]

/-- The number is in another base than ten. -/
def HasRadix (cs : List Char) : Prop :=
  ∃ c rest radix, cs = '0' :: c :: rest ∧ radix? c = some radix

theorem read_of_not_hasRadix (h : ¬ HasRadix cs) : read cs = readDecimal cs := by
  unfold read
  split
  · next c rest =>
    cases hr : radix? c with
    | none => rfl
    | some radix => exact absurd ⟨c, rest, radix, rfl, hr⟩ h
  · rfl

theorem read_of_radix? {c : Char} {radix : Nat} (h : radix? c = some radix) (rest : List Char) :
    read ('0' :: c :: rest) = readRadix radix rest := by
  rw [read, h]

theorem isNamePart_of_radix? {c : Char} {radix : Nat} (h : radix? c = some radix) :
    isNamePart c = true := by
  have letters : ['x', 'X', 'o', 'O', 'b', 'B'].all isNamePart = true := by decide
  refine List.all_eq_true.1 letters c ?_
  unfold radix? at h
  split at h
  · decide
  · decide
  · decide
  · decide
  · decide
  · decide
  · cases h

theorem read_le (cs : List Char) : (read cs).2 ≤ cs.length := by
  by_cases h : HasRadix cs
  · obtain ⟨c, rest, radix, rfl, hr⟩ := h
    rw [read_of_radix? hr, List.length_cons, List.length_cons]
    have := readRadix_le radix rest
    omega
  · rw [read_of_not_hasRadix h]
    exact readDecimal_le cs

theorem length_le_readDecimal (cs : List Char) :
    (Layout.ofText cs).length ≤ (readDecimal cs).2 := by
  unfold readDecimal
  dsimp only
  split
  · exact Nat.le_refl _
  · split <;> exact Nat.le_refl _

theorem digitCount_pos {c : Char} (h : isDigit c = true) (cs : List Char) :
    0 < digitCount (c :: cs) := by
  rw [digitCount, List.takeWhile_cons_of_pos h]
  exact Nat.succ_pos _

/-- A text that begins with a point begins with a fraction. -/
theorem fraction_le_read_point (cs : List Char) : 1 + digitCount cs ≤ (read ('.' :: cs)).2 := by
  have hr : ¬ HasRadix ('.' :: cs) := by
    rintro ⟨c, rest, radix, he, -⟩
    exact absurd (List.cons.inj he).1 (by decide)
  have hd : digitCount ('.' :: cs) = 0 := rfl
  have hf : (Layout.ofText ('.' :: cs)).fraction = 1 + digitCount cs := by
    simp only [Layout.ofText, hd, List.drop_zero, fractionLength_point]
  have hl : (Layout.ofText ('.' :: cs)).fraction ≤ (Layout.ofText ('.' :: cs)).length := by
    simp only [Layout.length]
    omega
  rw [read_of_not_hasRadix hr, ← hf]
  exact Nat.le_trans hl (length_le_readDecimal _)

theorem of_radix? {c : Char} {radix : Nat} (h : radix? c = some radix) :
    isDigit c = false ∧ c ≠ '.' := by
  unfold radix? at h
  split at h
  · decide
  · decide
  · decide
  · decide
  · decide
  · decide
  · cases h

/-- A number takes the point behind its digits. -/
theorem length_lt_read_point (hc : cs.all isDigit = true) (ds : List Char) :
    cs.length < (read (cs ++ '.' :: ds)).2 := by
  have hr : ¬ HasRadix (cs ++ '.' :: ds) := by
    rintro ⟨c, rest, radix, he, hx⟩
    obtain ⟨hdigit, hpoint⟩ := of_radix? hx
    match cs with
    | [] => exact absurd (List.cons.inj he).1 (by decide)
    | [d] => exact hpoint (List.cons.inj (List.cons.inj he).2).1.symm
    | d :: e :: cs =>
      obtain ⟨rfl, -⟩ := List.cons.inj (List.cons.inj he).2
      simp only [List.all_cons, hdigit, Bool.false_and, Bool.and_false, Bool.false_eq_true] at hc
  have hdigits : digitCount (cs ++ '.' :: ds) = cs.length := by
    rw [digitCount, List.takeWhile_append_of_pos (List.all_eq_true.1 hc),
      List.takeWhile_cons_of_neg (by decide), List.append_nil]
  have hf : (Layout.ofText (cs ++ '.' :: ds)).fraction = 1 + digitCount ds := by
    simp only [Layout.ofText, hdigits, List.drop_left, fractionLength_point]
  have hl : (Layout.ofText (cs ++ '.' :: ds)).whole + (Layout.ofText (cs ++ '.' :: ds)).fraction ≤
      (Layout.ofText (cs ++ '.' :: ds)).length := by
    simp only [Layout.length]
    omega
  have hw : (Layout.ofText (cs ++ '.' :: ds)).whole = cs.length := hdigits
  rw [read_of_not_hasRadix hr]
  have := length_le_readDecimal (cs ++ '.' :: ds)
  omega

/-- A text that begins with a digit or a point begins with characters of a number. -/
theorem read_pos {c : Char} (h : isDigit c = true ∨ c = '.') (cs : List Char) :
    0 < (read (c :: cs)).2 := by
  by_cases hr : HasRadix (c :: cs)
  · obtain ⟨d, rest, radix, he, hr⟩ := hr
    rw [he, read_of_radix? hr]
    unfold readRadix
    dsimp only
    split <;> exact Nat.lt_of_lt_of_le Nat.zero_lt_two (Nat.le_add_right _ _)
  · obtain hd | rfl := h
    · have hl : (Layout.ofText (c :: cs)).whole ≤ (Layout.ofText (c :: cs)).length := by
        simp only [Layout.length]
        omega
      rw [read_of_not_hasRadix hr]
      exact Nat.lt_of_lt_of_le (digitCount_pos hd cs)
        (Nat.le_trans hl (length_le_readDecimal _))
    · exact Nat.lt_of_lt_of_le (by omega) (fraction_le_read_point cs)

/-- What begins like a number is one, or it is at fault. -/
theorem read_lexeme (cs : List Char) :
    (∃ value, (read cs).1 = .number value) ∨ ∃ fault, (read cs).1 = .fault fault := by
  by_cases hr : HasRadix cs
  · obtain ⟨d, rest, radix, rfl, hr⟩ := hr
    rw [read_of_radix? hr]
    unfold readRadix
    dsimp only
    split
    · exact .inr ⟨_, rfl⟩
    · exact .inl ⟨_, rfl⟩
  · rw [read_of_not_hasRadix hr]
    unfold readDecimal
    dsimp only
    split
    · exact .inr ⟨_, rfl⟩
    · split
      · exact .inr ⟨_, rfl⟩
      · exact .inl ⟨_, rfl⟩

theorem read_take (h : (read cs).1.isFault = false) : read (cs.take (read cs).2) = read cs := by
  by_cases hr : HasRadix cs
  · obtain ⟨c, rest, radix, rfl, hr⟩ := hr
    rw [read_of_radix? hr] at h ⊢
    obtain ⟨n, hn⟩ : ∃ n, (readRadix radix rest).2 = n + 2 := by
      unfold readRadix
      dsimp only
      split <;> exact ⟨_, Nat.add_comm _ _⟩
    have ht := readRadix_take h
    rw [hn, Nat.add_sub_cancel] at ht
    rw [hn, List.take_succ_cons, List.take_succ_cons, read_of_radix? hr]
    exact ht
  · rw [read_of_not_hasRadix hr] at h ⊢
    rw [read_of_not_hasRadix, readDecimal_take h]
    rintro ⟨c, rest, radix, hc, hx⟩
    refine hr ⟨c, cs.drop 2, radix, ?_, hx⟩
    have hp : '0' :: c :: rest <+: cs := hc ▸ List.take_prefix _ _
    obtain ⟨more, rfl⟩ := hp
    rfl

theorem hasRadix_append (hc : cs ≠ []) (hn : NoName ds) : HasRadix (cs ++ ds) ↔ HasRadix cs := by
  constructor
  · rintro ⟨c, rest, radix, he, hx⟩
    match cs with
    | [] => exact absurd rfl hc
    | [d] =>
      obtain ⟨-, rfl⟩ := List.cons.inj he
      rw [NoName, List.head?_cons, Option.any_some, isNamePart_of_radix? hx] at hn
      cases hn
    | d :: e :: cs =>
      obtain ⟨hd, he⟩ := List.cons.inj he
      obtain ⟨rfl, -⟩ := List.cons.inj he
      exact ⟨e, cs, radix, by rw [hd], hx⟩
  · rintro ⟨c, rest, radix, rfl, hx⟩
    exact ⟨c, rest ++ ds, radix, rfl, hx⟩

theorem read_append_of_decimal (hc : cs ≠ []) (hn : NoName ds)
    (h : ¬ HasRadix cs → readDecimal (cs ++ ds) = readDecimal cs) : read (cs ++ ds) = read cs := by
  by_cases hr : HasRadix cs
  · obtain ⟨c, rest, radix, rfl, hx⟩ := hr
    rw [List.cons_append, List.cons_append, read_of_radix? hx, read_of_radix? hx,
      readRadix_append hn]
  · have hr' : ¬ HasRadix (cs ++ ds) := fun hr' => hr ((hasRadix_append hc hn).1 hr')
    rw [read_of_not_hasRadix hr, read_of_not_hasRadix hr', h hr]

theorem read_append {lexeme : Lexeme} (h : read cs = (lexeme, cs.length))
    (hf : lexeme.isFault = false) (hc : cs ≠ []) (hn : NoName ds)
    (hd : cs.all isDigit = true → ds.head? ≠ some '.') : read (cs ++ ds) = read cs :=
  read_append_of_decimal hc hn fun hr => by
    rw [read_of_not_hasRadix hr] at h
    exact readDecimal_append h hf hn hd

end Number

end TemplateExpr
