/-
  The texts that are names. Whether a character is a sigil is for the grammar to say, so what is
  a name depends on it: `$` starts a name unless it is a sigil, and then only in front of one.

  * `spelled_name_iff`: a text is read as one name if and only if it is a `NameText`.
-/
import TemplateExpr.Proofs.Token.Spelled
import Mathlib.Data.List.TakeWhile

namespace TemplateExpr
open Text

/-- A name: a sigil of the grammar and a word behind it, or a word that is not reserved and does
    not begin with a sigil. -/
inductive NameText (g : Grammar) : List Char → Prop
  | sigil {sigil c cs} : g.accepts sigil = true → isNameStart c = true →
    (∀ d ∈ cs, isNamePart d = true) → NameText g (sigil.char :: c :: cs)
  | word {c cs} : g.sigil? c = none → isNameStart c = true → (∀ d ∈ cs, isNamePart d = true) →
    String.ofList (c :: cs) ∉ Symbol.keywords → NameText g (c :: cs)

section
variable {g : Grammar} {c : Char} {cs : List Char}

theorem Grammar.sigil?_eq_some_iff {sigil : Sigil} :
    g.sigil? c = some sigil ↔ c = sigil.char ∧ g.accepts sigil = true := by
  rw [sigil?, Option.filter_eq_some_iff]
  constructor
  · rintro ⟨hc, ha⟩
    exact ⟨(Sigil.char_of_ofChar? hc).symm, ha⟩
  · rintro ⟨rfl, ha⟩
    exact ⟨Sigil.ofChar?_char sigil, ha⟩

theorem Text.isNameStart_of_isSpace (h : isSpace c = true) : isNameStart c = false := by
  simp only [isSpace, isNewline, Bool.or_eq_true, beq_iff_eq] at h
  obtain (((((rfl | rfl) | rfl) | rfl) | rfl) | rfl) | ((rfl | rfl) | rfl) | rfl := h <;>
    decide +kernel

theorem Trivia.not_begins_of_isNameStart (h : isNameStart c = true) (cs : List Char) :
    begins (c :: cs) = false := by
  have hspace : isSpace c = false := by
    cases hs : isSpace c with
    | false => rfl
    | true => rw [isNameStart_of_isSpace hs] at h; cases h
  have hslash : (c == '/') = false := by
    rw [beq_eq_false_iff_ne]
    rintro rfl
    rw [isNameStart_ascii (by decide)] at h
    cases h
  rw [begins, hspace, hslash]
  rfl

/-- A name is a single token, and the only token with its characters. -/
theorem spelled_name_iff {raw : String} : Spelled g (.name raw) raw ↔ NameText g raw.toList := by
  constructor
  · intro h
    obtain ⟨c, cs, hraw, -, hread⟩ := h.alone rfl
    have hs := Lexeme.start_read g c cs
    rw [hread] at hs
    have hknown : raw ∉ Symbol.keywords := by
      have hk := @Lexeme.known_read g c cs (by rw [hread]; rfl)
      rwa [hread] at hk
    rw [hraw]
    generalize hfound : (Lexeme.name raw, cs.length) = found at hs
    cases hs with
    | @sigil sigil hs =>
      obtain ⟨rfl, ha⟩ := Grammar.sigil?_eq_some_iff.1 hs
      unfold Lexeme.readSigil at hfound
      split at hfound
      · next hstart =>
        have hparts := all_of_takeWhile_length (congrArg Prod.snd hfound).symm
        cases cs with
        | nil => cases hstart
        | cons d cs =>
          exact .sigil ha hstart fun e he => hparts e (List.mem_cons_of_mem _ he)
      · cases hfound
    | word hs hn =>
      refine .word hs hn (all_of_takeWhile_length (congrArg Prod.snd hfound).symm) ?_
      rwa [← hraw, String.ofList_toList]
    | number =>
      have hl := congrArg Prod.fst hfound
      obtain ⟨value, hv⟩ | ⟨fault, hv⟩ := Number.read_lexeme (c :: cs)
      · cases hl.trans hv
      · cases hl.trans hv
    | mark => cases hfound
    | literal =>
      have hl := congrArg Prod.fst hfound
      obtain ⟨fault, hv⟩ | ⟨value, hv⟩ := Literal.readBody_lexeme c [] cs
      · cases hl.trans hv
      · cases hl.trans hv
    | operator =>
      unfold Lexeme.readOperator at hfound
      split at hfound <;> cases hfound
  · intro h
    generalize htext : raw.toList = text at h
    have hraw : raw = String.ofList text := by rw [← htext, String.ofList_toList]
    refine Lexeme.Alone.spelled ?_
    cases h with
    | @sigil sigil c cs ha hstart hparts =>
      refine ⟨sigil.char, c :: cs, htext, by cases sigil <;> rfl, ?_⟩
      have hhead : (c :: cs).head?.any isNameStart = true := hstart
      have hall : (c :: cs).takeWhile isNamePart = c :: cs := List.takeWhile_eq_self_iff.2 <|
        List.forall_mem_cons.2 ⟨isNamePart_of_isNameStart hstart, hparts⟩
      rw [(Lexeme.Start.sigil (Grammar.sigil?_eq_some_iff.2 ⟨rfl, ha⟩)).read_eq, hraw,
        Lexeme.readSigil, if_pos hhead, hall]
    | @word c cs hs hn hparts hk =>
      refine ⟨c, cs, htext, Trivia.not_begins_of_isNameStart hn cs, ?_⟩
      rw [(Lexeme.Start.word hs hn).read_eq, Lexeme.readWord,
        List.takeWhile_eq_self_iff.2 hparts, hraw]
      obtain ⟨-, hm⟩ | ⟨hw, -⟩ := Lexeme.word_cases (String.ofList (c :: cs))
      · exact absurd hm hk
      · rw [hw]

end

end TemplateExpr
