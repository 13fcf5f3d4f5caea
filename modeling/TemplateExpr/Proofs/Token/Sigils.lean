/-
  What a grammar decides: which texts have a fault, and nothing else. A sigil with a name behind
  it is that name under every grammar that reads it; of the three only `$` is read without being
  a sigil, as the first character of the same name.

  * `Lexeme.read_eq`, `Token.ofText_eq`: two grammars read the same tokens where neither meets a
    fault.
  * `Dialect.analyse_grammars`: and so the same programs, if both read the text.
-/
import TemplateExpr.Proofs.Grammar.Faults
import TemplateExpr.Proofs.Token.Names
import TemplateExpr.Template

namespace TemplateExpr
open Text Source

/-! ## Lexemes -/

namespace Lexeme

variable {g g' : Grammar} {c : Char} {cs : List Char} {sigil : Sigil}

/-- No operator begins with a sigil. -/
theorem operatorAt?_sigil (sigil : Sigil) (cs : List Char) :
    Symbol.operatorAt? (sigil.char :: cs) = none := by
  cases ho : Symbol.operatorAt? (sigil.char :: cs) with
  | none => rfl
  | some op =>
    have table : ∀ op ∈ Symbol.operators, ∀ sigil ∈ Sigil.all,
        op.toList.head? ≠ some sigil.char := by decide
    obtain ⟨hmem, -, hop⟩ := toList_of_operatorAt? ho
    exact absurd (by rw [hop]; rfl) (table op hmem sigil (by cases sigil <;> decide))

/-- A sigil that is no fault has a name behind it, and is one word with it. -/
theorem readSigil_eq_readWord (hf : (readSigil sigil cs).1.isFault = false) :
    readSigil sigil cs = readWord sigil.char cs := by
  unfold readSigil at hf ⊢
  split
  · obtain ⟨-, hk⟩ | ⟨hw, -⟩ :=
      word_cases (String.ofList (sigil.char :: cs.takeWhile isNamePart))
    · exact absurd hk (not_keyword_of_sigil sigil _)
    · rw [readWord, hw]
  · next hn => rw [if_neg hn] at hf; cases hf

/-- Where a sigil is not one of the grammar, it is read as a word or not at all. -/
theorem read_of_no_sigil (hs : g.sigil? sigil.char = none)
    (hf : (read g sigil.char cs).1.isFault = false) :
    read g sigil.char cs = readWord sigil.char cs := by
  have hstart := start_read g sigil.char cs
  generalize read g sigil.char cs = found at hstart hf
  cases hstart with
  | sigil hs' => rw [hs] at hs'; cases hs'
  | word => rfl
  | number _ _ hd => cases sigil <;> cases hd
  | mark _ _ _ hm => exact absurd hm (by cases sigil <;> decide)
  | literal _ _ _ _ hq => cases sigil <;> cases hq
  | operator =>
    rw [readOperator, operatorAt?_sigil] at hf
    cases hf

/-- A character that is a sigil of one of the grammars. -/
theorem read_eq_of_sigil (hs : g.sigil? c = some sigil)
    (hf : (read g c cs).1.isFault = false) (hf' : (read g' c cs).1.isFault = false) :
    read g c cs = read g' c cs := by
  obtain ⟨rfl, -⟩ := Grammar.sigil?_eq_some_iff.1 hs
  rw [(Start.sigil hs).read_eq] at hf ⊢
  cases hs' : g'.sigil? sigil.char with
  | none => rw [read_of_no_sigil hs' hf', readSigil_eq_readWord hf]
  | some other =>
    obtain ⟨hc, -⟩ := Grammar.sigil?_eq_some_iff.1 hs'
    rw [(Start.sigil hs').read_eq, Sigil.char_injective hc]

/-- Two grammars read the same lexeme, if neither meets a fault. -/
theorem read_eq (hf : (read g c cs).1.isFault = false)
    (hf' : (read g' c cs).1.isFault = false) : read g c cs = read g' c cs := by
  cases hs : g.sigil? c with
  | some sigil => exact read_eq_of_sigil hs hf hf'
  | none =>
    cases hs' : g'.sigil? c with
    | some sigil => exact (read_eq_of_sigil hs' hf' hf).symm
    | none => rw [read, read, hs, hs']

end Lexeme

/-! ## Tokens -/

namespace Token

variable {g g' : Grammar} {cursor : Cursor} {cs rest : List Char} {c : Char}

/-- One step of the reader where it meets no fault. -/
theorem ofTextFrom_of_faultless (hd : cs.drop (Trivia.ofText cs).length = c :: rest)
    (h : Faultless (ofTextFrom g cursor cs)) :
    let start := cursor.past (cs.take (Trivia.ofText cs).length)
    let found := Lexeme.read g c rest
    let others := ofTextFrom g (start.past (c :: rest.take found.2)) (rest.drop found.2)
    found.1.isFault = false ∧ Faultless others ∧ ofTextFrom g cursor cs =
      lexed start found.1 (Trivia.ofText cs).newline c (rest.take found.2) :: others := by
  intro start found others
  rw [ofTextFrom_of_drop hd] at h ⊢
  dsimp only at h ⊢
  split at h
  · cases h _ List.mem_cons_self
  · next hc =>
    rw [if_neg hc]
    split at h
    · next hf =>
      have hno := h _ List.mem_cons_self
      rw [lexed, hf] at hno
      cases hno
    · next hf =>
      rw [if_neg hf]
      exact ⟨by simpa using hf, fun token ht => h token (List.mem_cons_of_mem _ ht), rfl⟩

/-- Two grammars read the same tokens, if neither meets a fault. The induction is on the number
    of characters that are left: both grammars step over the same ones. -/
theorem ofTextFrom_eq (h : Faultless (ofTextFrom g cursor cs))
    (h' : Faultless (ofTextFrom g' cursor cs)) :
    ofTextFrom g cursor cs = ofTextFrom g' cursor cs := by
  induction hn : cs.length using Nat.strongRecOn generalizing cursor cs with
  | ind n ih =>
    cases hd : cs.drop (Trivia.ofText cs).length with
    | nil => rw [ofTextFrom_of_drop_eq_nil hd, ofTextFrom_of_drop_eq_nil hd]
    | cons c rest =>
      obtain ⟨hf, ho, he⟩ := ofTextFrom_of_faultless hd h
      obtain ⟨hf', ho', he'⟩ := ofTextFrom_of_faultless hd h'
      rw [← Lexeme.read_eq hf hf'] at ho' he'
      rw [he, he', ih _ (hn ▸ length_drop_lt hd _) ho ho' rfl]

end Token

/-! ## Programs -/

/-- Grammars that meet no fault in a text read the same tokens from it, and dialects that differ
    in nothing but their grammars read the same program from it, if both of them read one. -/
theorem Dialect.analyse_grammars :
    (∀ (g g' : Grammar) (text : List Char), Faultless (Token.ofText g text) →
      Faultless (Token.ofText g' text) → Token.ofText g text = Token.ofText g' text) ∧
    ∀ (dialect dialect' : Dialect) (around : Surroundings) (code : String)
      (program program' : Program), dialect.globals = dialect'.globals →
      dialect.analyse around code = .ok program →
      dialect'.analyse around code = .ok program' → program = program' := by
  refine ⟨fun g g' text => Token.ofTextFrom_eq, ?_⟩
  intro dialect dialect' around code program program' hglobals h h'
  obtain ⟨parsed, hp, rfl⟩ := analyse_eq_ok_iff.1 h
  obtain ⟨parsed', hp', rfl⟩ := analyse_eq_ok_iff.1 h'
  have htokens : Token.ofText dialect.grammar code.toList =
      Token.ofText dialect'.grammar code.toList :=
    Token.ofTextFrom_eq (Program.faultless_of_ofText hp) (Program.faultless_of_ofText hp')
  have hparse : dialect.parse around code = dialect'.parse around code := by
    rw [parse, parse, Program.ofText, Program.ofText, Token.ofTextWithin, Token.ofTextWithin,
      htokens]
  rw [hparse, hp'] at hp
  rw [← Except.ok.inj hp, vocabulary, vocabulary, hglobals]

/-- Names with dollars in them, with and without sigils. -/
theorem analyse_grammars_dollars :
    let code := "$a + $$(b$, $_1)"
    Token.ofText .template code.toList = Token.ofText .base code.toList ∧
    ∃ program, ({} : Dialect).analyse {} code = .ok program ∧
      ({ grammar := .base } : Dialect).analyse {} code = .ok program := by
  intro code
  refine ⟨Dialect.analyse_grammars.1 _ _ _ (by decide +kernel) (by decide +kernel), ?_⟩
  obtain ⟨program, h⟩ : ∃ program, ({} : Dialect).analyse {} code = .ok program :=
    Production.exists_eq_ok_of_isOk (by decide +kernel)
  obtain ⟨program', h'⟩ :
      ∃ program, ({ grammar := .base } : Dialect).analyse {} code = .ok program :=
    Production.exists_eq_ok_of_isOk (by decide +kernel)
  have hsame := Dialect.analyse_grammars.2 {} { grammar := .base } {} _ _ _ rfl h h'
  exact ⟨program, h, by rw [h', hsame]⟩

end TemplateExpr
