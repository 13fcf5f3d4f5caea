/-
  The characters of a lexeme: no quote and no brace outside a text literal, and in a literal
  quotes only behind a backslash.

  * `Literal.quoted_of_readBody`: what stands between the quotes of a literal.
  * `Number.plain_of_read`: the characters of a number.
  * `Lexeme.Alone.balanced`: a lexeme that is no brace is balanced by itself.
-/
import TemplateExpr.Proofs.Token.Spelled
import TemplateExpr.Proofs.Document.Balanced

namespace TemplateExpr
open Text

/-! ## Plain characters -/

section
variable {c : Char} {cs : List Char}

/-- The characters that are not plain. -/
def quotesAndBraces : List Char :=
  ['\'', '"', '`', '\x7b', '\x7d']

theorem isPlain_iff : isPlain c = true ↔ c ∉ quotesAndBraces := by
  simp [isPlain, isQuote, quotesAndBraces, not_or, and_assoc]

/-- A class without quotes and braces has plain characters only. -/
theorem isPlain_of_class {p : Char → Bool} (hp : quotesAndBraces.any p = false)
    (hc : p c = true) : isPlain c = true := by
  refine isPlain_iff.2 fun hd => ?_
  rw [List.any_eq_true.2 ⟨c, hd, hc⟩] at hp
  cases hp

theorem isPlain_of_isSpace (h : isSpace c = true) : isPlain c = true :=
  isPlain_of_class (by decide) h

theorem isPlain_of_isNamePart (h : isNamePart c = true) : isPlain c = true :=
  isPlain_of_class (by decide +kernel) h

theorem isPlain_of_isDigit (h : isDigit c = true) : isPlain c = true :=
  isPlain_of_isNamePart (isNamePart_of_isDigit h)

end

/-! ## Numbers -/

namespace Number
variable {c : Char} {cs : List Char}

theorem plain_of_mem_digits (h : c ∈ cs.take (digitCount cs)) : isPlain c = true :=
  isPlain_of_isDigit (of_mem_take_takeWhile h)

theorem plain_of_mem_fraction (h : c ∈ cs.take (fractionLength cs)) : isPlain c = true := by
  unfold fractionLength at h
  split at h
  · next cs =>
    rw [Nat.add_comm, List.take_succ_cons] at h
    obtain rfl | h := List.mem_cons.1 h
    · decide
    · exact plain_of_mem_digits h
  · rw [List.take_zero] at h
    cases h

theorem plain_of_mem_mark (h : c ∈ cs.take (exponentMarkLength cs)) : isPlain c = true := by
  have hplain : ['e', 'E', '+', '-'].all isPlain = true := by decide
  refine List.all_eq_true.1 hplain c ?_
  unfold exponentMarkLength at h
  split at h
  · split at h
    · split at h
      · split at h <;>
        · simp only [List.take_succ_cons, List.take_zero, List.mem_cons, List.not_mem_nil] at h ⊢
          grind
      · simp only [List.take_succ_cons, List.take_zero, List.mem_cons, List.not_mem_nil] at h ⊢
        grind
    · cases h
  · cases h

theorem plain_of_mem_layout (h : c ∈ cs.take (Layout.ofText cs).length) : isPlain c = true := by
  simp only [Layout.length, List.take_add, List.mem_append] at h
  obtain ((h | h) | h) | h := h
  · exact plain_of_mem_digits h
  · exact plain_of_mem_fraction h
  · exact plain_of_mem_mark h
  · unfold Layout.ofText at h
    dsimp only at h
    split at h
    · rw [List.take_zero] at h
      cases h
    · exact plain_of_mem_digits h

/-- The characters of a number are letters, digits, points and signs. -/
theorem plain_of_read (hf : (read cs).1.isFault = false) :
    ∀ c ∈ cs.take (read cs).2, isPlain c = true := by
  by_cases hr : HasRadix cs
  · obtain ⟨letter, rest, radix, rfl, hr⟩ := hr
    rw [read_of_radix? hr] at hf ⊢
    unfold readRadix at hf ⊢
    dsimp only at hf ⊢
    split
    · next hfault => rw [if_pos hfault] at hf; cases hf
    · intro c hc
      rw [Nat.add_comm, List.take_succ_cons, List.take_succ_cons] at hc
      obtain rfl | hc := List.mem_cons.1 hc
      · decide
      obtain rfl | hc := List.mem_cons.1 hc
      · exact isPlain_of_isNamePart (isNamePart_of_radix? hr)
      · exact isPlain_of_isNamePart (isNamePart_of_digitBelow? (of_mem_take_takeWhile hc))
  · rw [read_of_not_hasRadix hr]
    intro c hc
    have hlength : (readDecimal cs).2 = (Layout.ofText cs).length := by
      unfold readDecimal
      dsimp only
      split
      · rfl
      · split <;> rfl
    rw [hlength] at hc
    exact plain_of_mem_layout hc

end Number

/-! ## Text literals -/

namespace Literal
variable {cs : List Char} {d quote : Char} {n : Nat}

theorem hexDigits_eq_of_hexChar? {width : Nat} (h : hexChar? width cs = some d) :
    ∀ c ∈ cs.take width, isHexDigit c = true := by
  unfold hexChar? at h
  dsimp only at h
  split at h
  · next hl =>
    refine all_of_takeWhile_length ?_
    change (hexDigits width cs).length = _
    rw [hl, List.length_take_of_le]
    have := hexDigits_le width cs
    omega
  · cases h

/-- An escape takes one character, and perhaps digits of base sixteen behind it. -/
theorem take_of_escape (h : escape cs = .char d n) :
    ∃ c digits, cs.take n = c :: digits ∧ ∀ e ∈ digits, isHexDigit e = true := by
  unfold escape at h
  split at h
  · cases h
  · split at h
    · next hc =>
      cases h
      exact ⟨_, _, List.take_succ_cons, hexDigits_eq_of_hexChar? hc⟩
    · cases h
  · split at h
    · next hc =>
      cases h
      exact ⟨_, _, List.take_succ_cons, hexDigits_eq_of_hexChar? hc⟩
    · cases h
  · cases h
    exact ⟨_, _, List.take_succ_cons, List.forall_mem_nil _⟩

/-- What a literal takes are characters that may stand between its quotes, and the quote. -/
theorem quoted_of_readBody {seen : List Char} {value : String}
    (hq : isHexDigit quote = false) (h : readBody quote seen cs = (.text value, n)) :
    ∃ inner, cs.take n = inner ++ [quote] ∧ Quoted quote inner := by
  induction hk : cs.length using Nat.strongRecOn generalizing cs seen n with
  | ind k ih =>
    cases cs with
    | nil => rw [readBody] at h; cases h
    | cons c cs =>
      rw [readBody] at h
      split at h
      · next hc =>
        cases h
        exact ⟨[], by rw [hc]; rfl, .nil⟩
      · next hc =>
        split at h
        · cases h
        · split at h
          · next hb =>
            split at h
            · cases h
            · next e length he =>
              obtain ⟨first, digits, htake, hdigits⟩ := take_of_escape he
              cases hr : readBody quote (e :: seen) (cs.drop length) with
              | mk lexeme m =>
                rw [hr] at h
                cases h
                obtain ⟨inner, hinner, hquoted⟩ := ih _
                  (by rw [List.length_drop, ← hk, List.length_cons]; omega) hr rfl
                refine ⟨c :: first :: digits ++ inner, ?_, ?_⟩
                · rw [Nat.add_assoc, Nat.add_comm 1, List.take_succ_cons, List.take_add, htake,
                    hinner]
                  simp
                · rw [hb]
                  refine .escape (.of_plain (fun e he => ⟨?_, ?_⟩) hquoted)
                  · rintro rfl
                    rw [hdigits e he] at hq
                    cases hq
                  · rintro rfl
                    exact absurd (hdigits _ he) (by decide)
          · next hb =>
            cases hr : readBody quote (c :: seen) cs with
            | mk lexeme m =>
              rw [hr] at h
              cases h
              obtain ⟨inner, hinner, hquoted⟩ := ih _ (by rw [← hk, List.length_cons]; omega) hr rfl
              refine ⟨c :: inner, ?_, .plain hc hb hquoted⟩
              rw [Nat.add_comm, List.take_succ_cons, hinner]
              rfl

end Literal

/-! ## Lexemes -/

section
variable {g : Grammar} {lexeme : Lexeme} {raw : String}

theorem Grammar.isPlain_of_sigil? {c : Char} {sigil : Sigil} (h : g.sigil? c = some sigil) :
    isPlain c = true := by
  have hc : Sigil.ofChar? c = some sigil := by
    rw [Grammar.sigil?] at h
    exact (Option.filter_eq_some_iff.1 h).1
  rw [← Sigil.char_of_ofChar? hc]
  cases sigil <;> decide

/-- A lexeme that is no brace is balanced by itself. -/
theorem Lexeme.Alone.balanced (h : lexeme.Alone g raw) (hf : lexeme.isFault = false)
    (hopen : lexeme ≠ .mark '\x7b') (hclose : lexeme ≠ .mark '\x7d') : Balanced raw.toList := by
  obtain ⟨c, cs, hraw, -, hread⟩ := h
  rw [hraw]
  have hs := Lexeme.start_read g c cs
  generalize hfound : Lexeme.read g c cs = found at hs
  rw [hread] at hfound
  cases hs with
  | @sigil sigil hs =>
    unfold Lexeme.readSigil at hfound
    split at hfound
    · have hlength := (congrArg Prod.snd hfound).symm
      have hcs := all_of_takeWhile_length hlength
      exact .plain (Grammar.isPlain_of_sigil? hs)
        (.of_plain fun d hd => isPlain_of_isNamePart (hcs d hd))
    · have hlexeme : lexeme = .fault _ := congrArg Prod.fst hfound
      rw [hlexeme] at hf
      cases hf
  | word _ hc =>
    have hlength := (congrArg Prod.snd hfound).symm
    have hcs := all_of_takeWhile_length hlength
    exact .plain (isPlain_of_isNamePart (isNamePart_of_isNameStart hc))
      (.of_plain fun d hd => isPlain_of_isNamePart (hcs d hd))
  | number _ _ hn =>
    have hnumber := congrArg Prod.fst hfound
    have hlength := congrArg Prod.snd hfound
    dsimp only at hnumber hlength
    have hpos := Number.read_pos (Lexeme.digit_or_point hn) cs
    have htake : (c :: cs).take (Number.read (c :: cs)).2 = c :: cs := by
      rw [List.take_of_length_le]
      rw [List.length_cons]
      omega
    have hplain := Number.plain_of_read (hnumber ▸ hf)
    rw [htake] at hplain
    exact .of_plain hplain
  | mark _ _ _ hm =>
    have hlexeme := congrArg Prod.fst hfound
    have hnil : cs = [] := List.length_eq_zero_iff.1 (congrArg Prod.snd hfound)
    have hmarks : Symbol.marks.all (fun d => d == '\x7b' || d == '\x7d' || isPlain d) = true := by
      decide
    have hc := List.all_eq_true.1 hmarks c hm
    simp only [Bool.or_eq_true, beq_iff_eq] at hc
    rw [hnil]
    obtain (rfl | rfl) | hc := hc
    · exact absurd hlexeme hopen
    · exact absurd hlexeme hclose
    · exact .plain hc .nil
  | literal _ _ _ _ hq =>
    obtain ⟨hquote, hhex⟩ : isQuote c = true ∧ isHexDigit c = false := by
      simp only [Bool.or_eq_true, beq_iff_eq] at hq
      obtain rfl | rfl := hq <;> decide
    obtain ⟨fault, hlit⟩ | ⟨value, hlit⟩ := Literal.readBody_lexeme c [] cs
    · have hlexeme : lexeme = .fault fault := (congrArg Prod.fst hfound).trans hlit
      rw [hlexeme] at hf
      cases hf
    · have hbody : Literal.readBody c [] cs = (.text value, cs.length) :=
        Prod.ext hlit (congrArg Prod.snd hfound).symm
      obtain ⟨inner, hinner, hquoted⟩ := Literal.quoted_of_readBody hhex hbody
      rw [List.take_length] at hinner
      rw [hinner]
      exact .quoted hquote hquoted .nil
  | operator _ _ _ _ _ =>
    have hplain : Symbol.operators.all (·.toList.all isPlain) = true := by decide +kernel
    cases ho : Symbol.operatorAt? (c :: cs) with
    | none =>
      rw [Lexeme.readOperator, ho] at hfound
      have hlexeme : lexeme = .fault _ := congrArg Prod.fst hfound
      rw [hlexeme] at hf
      cases hf
    | some op =>
      rw [Lexeme.readOperator_of_operatorAt? ho] at hfound
      obtain ⟨hmem, -, hop⟩ := Lexeme.toList_of_operatorAt? ho
      have hlength : cs.length = op.length - 1 := congrArg Prod.snd hfound
      rw [← hlength, List.take_length] at hop
      rw [← hop]
      exact .of_plain (List.all_eq_true.1 (List.all_eq_true.1 hplain op hmem))

end

end TemplateExpr
