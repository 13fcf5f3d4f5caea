/-
  Expressions without comments are found again: behind a brace, and up to the brace that is put
  behind it, an expression that can be read is the code of a region. The tokens of the expression
  are nested, and what stands between them is blank, so its characters are balanced.

  * `spaced_of_blankFrom`: a text without comments and faults is its tokens, and blanks.
  * `Nested.balanced`: nested tokens and balanced characters between them are balanced.
  * `RegionWalk.next_of_ofText`: the first region of a document around the expression.
-/
import TemplateExpr.Proofs.Document.Balanced
import TemplateExpr.Proofs.Document.Bindings
import TemplateExpr.Proofs.Grammar.Brackets
import TemplateExpr.Proofs.Grammar.Faults
import TemplateExpr.Proofs.Token.Characters

namespace TemplateExpr
open Source Text

/-! ## Blanks between the tokens -/

/-- The character at the index is one of the token. -/
def Token.Covers (token : Token) (k : Nat) : Prop :=
  token.span.start.offset ≤ k ∧ k < token.span.stop.offset

/-- Before, between and behind the tokens of the text all characters are blank. -/
def BlankBetween (g : Grammar) (text : List Char) : Prop :=
  ∀ k c, text[k]? = some c → (∀ token ∈ Token.ofText g text, ¬ token.Covers k) → isSpace c = true

instance (token : Token) (k : Nat) : Decidable (token.Covers k) :=
  inferInstanceAs (Decidable (_ ∧ _))

instance (g : Grammar) (text : List Char) : Decidable (BlankBetween g text) :=
  decidable_of_iff (∀ k, ∀ h : k < text.length,
    (∀ token ∈ Token.ofText g text, ¬ token.Covers k) → isSpace text[k] = true)
    ⟨fun h k _ hc => (List.getElem?_eq_some_iff.1 hc).2 ▸ h k (List.getElem?_eq_some_iff.1 hc).1,
      fun h k hk => h k text[k] (List.getElem?_eq_getElem hk)⟩

/-- The tokens one behind the other, with blanks before, between and behind them. -/
def Spaced : List Token → List Char → Prop
  | [], cs => ∀ c ∈ cs, isSpace c = true
  | token :: tokens, cs => ∃ blanks ds, cs = blanks ++ (token.raw.toList ++ ds) ∧
    (∀ c ∈ blanks, isSpace c = true) ∧ Spaced tokens ds

section
variable {g : Grammar} {cursor : Cursor} {cs : List Char}

/-- The characters that no token covers are blank, when the cursor stands before them. -/
def BlankFrom (g : Grammar) (cursor : Cursor) (cs : List Char) : Prop :=
  ∀ k c, cs[k]? = some c →
    (∀ token ∈ Token.ofTextFrom g cursor cs, ¬ token.Covers (cursor.place.offset + k)) →
    isSpace c = true

theorem BlankBetween.blankFrom {text : List Char} (h : BlankBetween g text) :
    BlankFrom g Cursor.origin text := by
  intro k c hc hn
  refine h k c hc fun token ht => ?_
  have := hn token ht
  rwa [show Cursor.origin.place.offset = 0 from rfl, Nat.zero_add] at this

/-- Behind the trivia the reader finds the token, and goes on with the rest. -/
structure Token.LeadsWith (g : Grammar) (cursor : Cursor) (cs trivia : List Char) (token : Token)
    (rest : List Char) : Prop where
  text : cs = trivia ++ (token.raw.toList ++ rest)
  shorter : rest.length < cs.length
  span : token.span =
    ⟨(cursor.past trivia).place, (cursor.past (trivia ++ token.raw.toList)).place⟩
  tokens : ofTextFrom g cursor cs =
    token :: ofTextFrom g (cursor.past (trivia ++ token.raw.toList)) rest

/-- One step of the reader of tokens when there are no faults: nothing is left but trivia, or a
    token stands behind the trivia. -/
theorem Token.ofTextFrom_cases
    (hf : ∀ token ∈ ofTextFrom g cursor cs, token.lexeme.isFault = false) :
    ofTextFrom g cursor cs = [] ∨ ∃ trivia token rest, LeadsWith g cursor cs trivia token rest := by
  cases hd : cs.drop (Trivia.ofText cs).length with
  | nil => exact .inl (ofTextFrom_of_drop_eq_nil hd)
  | cons c rest =>
    have hstep := @ofTextFrom_of_drop g cursor cs rest c hd
    dsimp only at hstep
    split at hstep
    · rw [hstep, List.forall_mem_singleton] at hf
      cases hf
    split at hstep
    · next hfault =>
      rw [hstep, List.forall_mem_singleton, lexed, hfault] at hf
      cases hf
    have hcs : cs = cs.take (Trivia.ofText cs).length ++
        (c :: rest.take (Lexeme.read g c rest).2 ++ rest.drop (Lexeme.read g c rest).2) := by
      rw [List.cons_append, List.take_append_drop, ← hd, List.take_append_drop]
    have hlength := congrArg List.length hcs
    rw [List.length_append, List.length_append, List.length_cons] at hlength
    generalize htoken : lexed _ _ _ _ _ = token at hstep
    have hraw : token.raw.toList = c :: rest.take (Lexeme.read g c rest).2 := by
      rw [← htoken]
      exact String.toList_ofList
    rw [← Cursor.past_append, ← hraw] at hstep
    rw [← hraw] at hcs
    refine .inr ⟨_, token, _, hcs, by omega, ?_, hstep⟩
    rw [hraw, Cursor.past_append, ← htoken]
    rfl

section
variable {token : Token} {trivia rest : List Char}
  (h : Token.LeadsWith g cursor cs trivia token rest)
include h

theorem Token.LeadsWith.start_eq :
    token.span.start.offset = cursor.place.offset + trivia.length := by
  rw [h.span, Cursor.offset_past]

theorem Token.LeadsWith.stop_eq : token.span.stop.offset =
    cursor.place.offset + (trivia.length + token.raw.toList.length) := by
  rw [h.span, Cursor.offset_past, List.length_append]

theorem Token.LeadsWith.stop_le :
    ∀ other ∈ Token.ofTextFrom g (cursor.past (trivia ++ token.raw.toList)) rest,
      token.span.stop.offset ≤ other.span.start.offset := by
  rw [h.span]
  exact fun other ho => ((Token.ascending_ofTextFrom g _ rest).forward other ho).1

/-- What no token covers in front of the first token is blank. -/
theorem BlankFrom.blank_trivia (hb : BlankFrom g cursor cs) : ∀ c ∈ trivia, isSpace c = true := by
  intro c hc
  obtain ⟨k, hk⟩ := List.mem_iff_getElem?.1 hc
  have hlt := (List.getElem?_eq_some_iff.1 hk).1
  have hstart := h.start_eq
  refine hb k c (by rw [h.text, List.getElem?_append_left hlt, hk]) ?_
  rw [h.tokens]
  refine List.forall_mem_cons.2 ⟨fun hcover => ?_, fun other ho hcover => ?_⟩
  · have := hcover.1
    omega
  · have := hcover.1
    have := h.stop_le other ho
    have := h.stop_eq
    omega

/-- What no token covers behind the first token is blank. -/
theorem BlankFrom.behind (hb : BlankFrom g cursor cs) :
    BlankFrom g (cursor.past (trivia ++ token.raw.toList)) rest := by
  intro k c hk hn
  rw [Cursor.offset_past, List.length_append] at hn
  refine hb (trivia.length + token.raw.toList.length + k) c ?_ ?_
  · rw [h.text, ← List.append_assoc, ← List.length_append, List.getElem?_append_right (by omega),
      Nat.add_sub_cancel_left, hk]
  · rw [h.tokens]
    refine List.forall_mem_cons.2 ⟨fun hcover => ?_, fun other ho hcover => hn other ho ?_⟩
    · have := hcover.2
      have := h.stop_eq
      omega
    · rwa [← Nat.add_assoc] at hcover

end

/-- A text without comments and faults is its tokens, and blanks. -/
theorem spaced_of_blankFrom
    (hf : ∀ token ∈ Token.ofTextFrom g cursor cs, token.lexeme.isFault = false)
    (hb : BlankFrom g cursor cs) : Spaced (Token.ofTextFrom g cursor cs) cs := by
  induction hn : cs.length using Nat.strongRecOn generalizing cursor cs with
  | ind n ih =>
    obtain hnil | ⟨trivia, token, rest, h⟩ := Token.ofTextFrom_cases hf
    · rw [BlankFrom, hnil] at hb
      rw [hnil]
      intro c hc
      obtain ⟨k, hk⟩ := List.mem_iff_getElem?.1 hc
      exact hb k c hk (List.forall_mem_nil _)
    · rw [h.tokens, List.forall_mem_cons] at hf
      have hrest := ih _ (hn ▸ h.shorter) hf.2 (hb.behind h) rfl
      rw [h.tokens]
      exact ⟨trivia, rest, h.text, hb.blank_trivia h, hrest⟩

end

/-! ## Balanced characters -/

/-- The token is no fault, and its characters are that token by themselves. -/
def Token.Clean (g : Grammar) (token : Token) : Prop :=
  token.lexeme.isFault = false ∧ Spelled g token.lexeme token.raw

theorem balanced_of_blank {cs : List Char} (h : ∀ c ∈ cs, isSpace c = true) : Balanced cs :=
  .of_plain fun c hc => isPlain_of_isSpace (h c hc)

theorem Spelled.toList_mark {g : Grammar} {c : Char} {raw : String}
    (h : Spelled g (.mark c) raw) : raw.toList = [c] := by
  rw [h.raw_eq rfl]
  exact String.toList_singleton c

/-- The tokens one behind the other, with balanced characters before, between and behind them. -/
def Laced : List Token → List Char → Prop
  | [], cs => Balanced cs
  | token :: tokens, cs => ∃ gap ds, cs = gap ++ (token.raw.toList ++ ds) ∧
    Balanced gap ∧ Laced tokens ds

theorem Spaced.laced {tokens : List Token} {cs : List Char} (h : Spaced tokens cs) :
    Laced tokens cs := by
  induction tokens generalizing cs with
  | nil => exact balanced_of_blank h
  | cons token tokens ih =>
    obtain ⟨blanks, ds, hcs, hb, hs⟩ := h
    exact ⟨blanks, ds, hcs, balanced_of_blank hb, ih hs⟩

theorem Laced.mapSpan {tokens : List Token} {cs : List Char} (h : Laced tokens cs)
    (f : Span → Span) : Laced (tokens.map (·.mapSpan f)) cs := by
  induction tokens generalizing cs with
  | nil => exact h
  | cons token tokens ih =>
    obtain ⟨gap, ds, hcs, hb, hs⟩ := h
    exact ⟨gap, ds, hcs, hb, ih hs⟩

theorem Laced.split {front back : List Token} {cs : List Char} (h : Laced (front ++ back) cs) :
    ∃ ds es, cs = ds ++ es ∧ Laced front ds ∧ Laced back es := by
  induction front generalizing cs with
  | nil => exact ⟨[], cs, rfl, .nil, h⟩
  | cons first front ih =>
    obtain ⟨gap, rest, rfl, hb, h⟩ := h
    obtain ⟨ds, es, rfl, hf, hk⟩ := ih h
    exact ⟨gap ++ (first.raw.toList ++ ds), es, by simp only [List.append_assoc],
      ⟨gap, ds, rfl, hb, hf⟩, hk⟩

/-- Nested tokens with balanced characters between them are balanced characters. -/
theorem Nested.balanced {g : Grammar} {tokens : List Token} (h : Nested tokens)
    (ht : ∀ token ∈ tokens, token.Clean g) {cs : List Char} (hs : Laced tokens cs) :
    Balanced cs := by
  induction h generalizing cs with
  | nil => exact hs
  | @plain token hn =>
    obtain ⟨hf, hspelled⟩ := ht token (List.mem_singleton_self _)
    obtain ⟨gap, ds, rfl, hb, hd⟩ := hs
    have htoken : Balanced token.raw.toList := by
      refine (hspelled.alone hf).balanced hf (fun hl => ?_) (fun hl => ?_) <;>
      · rw [hl] at hn
        cases hn
    exact hb.append (htoken.append hd)
  | @pair opening closing o c tokens hp ho hc _ ih =>
    obtain ⟨hto, htokens, htc⟩ : o.Clean g ∧ (∀ t ∈ tokens, t.Clean g) ∧ c.Clean g := by
      simpa [or_imp, forall_and] using ht
    obtain ⟨gap, rest, rfl, hb, hs⟩ := hs
    obtain ⟨ds, es, rfl, hin, gap', es', rfl, hb', hback⟩ := hs.split
    have hinner := (ih htokens hin).append hb'
    have hopening := (ho ▸ hto.2).toList_mark
    have hclosing := (hc ▸ htc.2).toList_mark
    rw [hopening, hclosing, ← List.append_assoc ds]
    refine hb.append ?_
    simp only [bracketPairs, List.mem_cons, Prod.mk.injEq, List.not_mem_nil, or_false] at hp
    obtain ⟨rfl, rfl⟩ | ⟨rfl, rfl⟩ | ⟨rfl, rfl⟩ := hp
    · exact .plain (by decide) (hinner.append (.plain (by decide) hback))
    · exact .plain (by decide) (hinner.append (.plain (by decide) hback))
    · exact .nested hinner hback
  | append _ _ ihf ihb =>
    obtain ⟨hf, hb⟩ := List.forall_mem_append.1 ht
    obtain ⟨ds, es, rfl, hds, hes⟩ := hs.split
    exact (ihf hf hds).append (ihb hb hes)

/-! ## Regions -/

section
variable {g : Grammar} {origin : Option Origin} {url : Option String} {code : List Char}
  {p : Program}

/-- With balanced characters between them, the tokens of a program are balanced characters. -/
theorem Program.balanced_of_laced (h : Program.ofText g origin url code = .ok p)
    {cs : List Char} (hl : Laced (Token.ofText g code) cs) : Balanced cs := by
  have hclean : ∀ token ∈ Token.ofTextWithin g origin code, token.Clean g := by
    intro token ht
    obtain ⟨original, ho, rfl⟩ := List.mem_map.1 ht
    have hf := Program.faultless_of_ofText h original ho
    refine ⟨hf, (Token.spelled_of_mem ho).resolve_left ?_⟩
    rw [hf]
    exact Bool.false_ne_true
  exact (nested_of_readsAll (readsAll_of_ofText h).1).balanced hclean (hl.mapSpan _)

/-- The characters of a program without comments are balanced. -/
theorem Program.balanced_of_ofText (h : Program.ofText g origin url code = .ok p)
    (hb : BlankBetween g code) : Balanced code :=
  Program.balanced_of_laced h
    (spaced_of_blankFrom (Program.faultless_of_ofText h) hb.blankFrom).laced

/-- Between the first brace of a document and the brace behind it, an expression without comments
    that can be read is found again. -/
theorem RegionWalk.next_of_ofText (h : Program.ofText g origin url code = .ok p)
    (hb : BlankBetween g code) {before : List Char} (hbrace : '{' ∉ before) (after : List Char) :
    (ofDocument (before ++ '{' :: (code ++ '}' :: after))).next.1 =
      some (.ok ⟨code, Origin.ofPlace (Cursor.origin.past (before ++ ['{'])).place,
        before.length, before.length + code.length + 2⟩) :=
  next_of_balanced hbrace (Program.balanced_of_ofText h hb) after

end

/-- Braces and quotes in a literal, one of them behind a backslash, an entry with braces in its
    value, and a function on the next line; more quotes and braces around the expression. -/
theorem next_of_ofText_nested :
    let code :=
      "f(\x7ba: '\x7d\\'\x7b`', b: [\x7b\x7d]\x7d,\nfunction () \x7b return \x7bx\x7d; \x7d)".toList
    let before := "it's \x7d\r\n ".toList
    let after := "\x7d \x7b'".toList
    (Program.ofText .template none none code).isOk = true ∧ BlankBetween .template code ∧
    '{' ∉ before ∧
    (RegionWalk.ofDocument (before ++ '{' :: (code ++ '}' :: after))).next.1 =
      some (.ok ⟨code, ⟨10, 1, 2⟩, 9, 64⟩) := by
  intro code before after
  have hok : (Program.ofText .template none none code).isOk = true := by decide +kernel
  have hb : BlankBetween .template code := by decide +kernel
  have hbrace : '{' ∉ before := by decide
  refine ⟨hok, hb, hbrace, ?_⟩
  obtain ⟨p, h⟩ := Production.exists_eq_ok_of_isOk hok
  exact RegionWalk.next_of_ofText h hb hbrace after

end TemplateExpr
