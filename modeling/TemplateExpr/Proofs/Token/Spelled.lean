/-
  Texts that are a single token, and the tokens of a text that begins with one of them.

  * `Spelled.alone`: a text that is a single token is read as its lexeme, to its end.
  * `Token.ofText_of_alone`: that token, and its span.
  * `spelled_of_mem`: the characters of each token of a text are that token by themselves.
  * `ofTextFrom_alone`: in front of a text that it ends before, the token stays what it is.
-/
import TemplateExpr.Proofs.Token.Spelling
import TemplateExpr.Proofs.Token.Places

namespace TemplateExpr
open Source Text

/-- The characters are a single token with the lexeme. -/
def Spelled (g : Grammar) (lexeme : Lexeme) (raw : String) : Prop :=
  ∃ token, Token.ofText g raw.toList = [token] ∧ token.lexeme = lexeme ∧ token.raw = raw

/-! ## Trivia -/

namespace Trivia

/-- Blank space or a comment begins the text. -/
def begins : List Char → Bool
  | [] => false
  | c :: cs => isSpace c || (c == '/' && cs.head?.any fun d => d == '/' || d == '*')

variable {cs : List Char}

theorem ofText_of_not_begins (h : begins cs = false) : ofText cs = empty := by
  unfold ofText
  split
  · rfl
  · cases h
  · cases h
  · next c cs _ _ =>
    have hc : isSpace c = false := by
      simp only [begins, Bool.or_eq_false_iff] at h
      exact h.1
    rw [if_neg (by simp [hc])]

theorem not_begins_of_length (hl : (ofText cs).length = 0) (ho : (ofText cs).openComment = false) :
    begins cs = false := by
  cases cs with
  | nil => rfl
  | cons c cs =>
    cases hb : begins (c :: cs) with
    | false => rfl
    | true =>
      exfalso
      by_cases hline : ∃ ds, c :: cs = '/' :: '/' :: ds
      · obtain ⟨ds, hds⟩ := hline
        rw [hds, ofText, behind] at hl
        dsimp only at hl
        omega
      · by_cases hblock : ∃ ds, c :: cs = '/' :: '*' :: ds
        · obtain ⟨ds, hds⟩ := hblock
          rw [hds, ofText] at hl ho
          split at hl
          · rw [behind] at hl
            dsimp only at hl
            omega
          · next hn => rw [hn] at ho; cases ho
        · have hs : isSpace c = true := by
            cases cs with
            | nil => simpa [begins] using hb
            | cons d cs =>
              simp only [begins, List.head?_cons, Option.any_some, Bool.or_eq_true,
                Bool.and_eq_true, beq_iff_eq] at hb
              obtain hs | ⟨rfl, rfl | rfl⟩ := hb
              · exact hs
              · exact absurd ⟨cs, rfl⟩ hline
              · exact absurd ⟨cs, rfl⟩ hblock
          rw [ofText, if_pos hs, behind] at hl
          · dsimp only at hl
            omega
          · rintro ds rfl rfl
            exact hline ⟨ds, rfl⟩
          · rintro ds rfl rfl
            exact hblock ⟨ds, rfl⟩

/-- Behind the trivia at the front of a text comes no more of it. -/
theorem not_begins_drop (cs : List Char) (ho : (ofText cs).openComment = false) :
    begins (cs.drop (ofText cs).length) = false := by
  induction cs using ofText.induct with
  | case1 => rw [ofText]; rfl
  | case2 cs ih =>
    rw [ofText] at ho ⊢
    have := ih ho
    rw [List.drop_drop] at this
    simp only [behind]
    rwa [Nat.add_assoc, Nat.add_comm 2, List.drop_succ_cons, List.drop_succ_cons]
  | case3 cs n hn ih =>
    rw [ofText] at ho ⊢
    simp only [hn] at ho ⊢
    have := ih ho
    rw [List.drop_drop] at this
    simp only [behind]
    rwa [Nat.add_assoc, Nat.add_comm 2, List.drop_succ_cons, List.drop_succ_cons]
  | case4 cs hn => rw [ofText, hn] at ho; cases ho
  | case5 c cs hline hblock hs ih =>
    rw [ofText, if_pos hs] at ho ⊢
    · simp only [behind]
      rw [Nat.add_comm 1, List.drop_succ_cons]
      exact ih ho
    all_goals assumption
  | case6 c cs hline hblock hs =>
    have hl : (ofText (c :: cs)).length = 0 := by
      rw [ofText, if_neg hs]
      · rfl
      all_goals assumption
    rw [hl]
    exact not_begins_of_length hl ho

/-- A blank in front of a text is trivia with the trivia of the text. -/
theorem ofText_cons_of_isSpace {c : Char} (h : isSpace c = true) (cs : List Char) :
    ofText (c :: cs) = (ofText cs).behind 1 (isNewline c) := by
  have hslash : c ≠ '/' := by
    rintro rfl
    cases h
  rw [ofText, if_pos h]
  · exact fun ds hc => absurd hc hslash
  · exact fun ds hc => absurd hc hslash

end Trivia

/-! ## Single tokens -/

section
variable {g : Grammar} {lexeme : Lexeme} {raw : String} {cursor : Cursor} {cs ds : List Char}

/-- The lexeme is read from the characters, to their end. -/
def Lexeme.Alone (g : Grammar) (lexeme : Lexeme) (raw : String) : Prop :=
  ∃ c cs, raw.toList = c :: cs ∧ Trivia.begins (c :: cs) = false ∧
    Lexeme.read g c cs = (lexeme, cs.length)

theorem Lexeme.Alone.known (h : lexeme.Alone g raw) (hf : lexeme.isFault = false) :
    lexeme.Known := by
  obtain ⟨c, cs, -, -, hread⟩ := h
  have hk : (read g c cs).1.Known := known_read (by rw [hread]; exact hf)
  rwa [hread] at hk

/-- One step of the reader of tokens, when no trivia comes first. -/
theorem Token.ofTextFrom_of_not_begins {c : Char} (h : Trivia.begins (c :: cs) = false) :
    ofTextFrom g cursor (c :: cs) =
      (let found := Lexeme.read g c cs
      let token := lexed cursor found.1 false c (cs.take found.2)
      if found.1.isFault then [token]
      else token :: ofTextFrom g (cursor.past (c :: cs.take found.2)) (cs.drop found.2)) := by
  have ht := Trivia.ofText_of_not_begins h
  have hd : (c :: cs).drop (Trivia.ofText (c :: cs)).length = c :: cs := by
    rw [ht]
    rfl
  rw [ofTextFrom_of_drop hd, ht]
  rfl

theorem Token.ofTextFrom_nil (g : Grammar) (cursor : Cursor) : ofTextFrom g cursor [] = [] :=
  ofTextFrom_of_drop_eq_nil List.drop_nil

/-- A space is passed over. -/
theorem Token.ofTextFrom_space (g : Grammar) (cursor : Cursor) (cs : List Char) :
    ofTextFrom g cursor (' ' :: cs) = ofTextFrom g (cursor.step ' ') cs := by
  have hs := Trivia.ofText_cons_of_isSpace (c := ' ') rfl cs
  have hlen : (Trivia.ofText (' ' :: cs)).length = (Trivia.ofText cs).length + 1 := by
    rw [hs]
    exact Nat.add_comm _ _
  have hdrop : (' ' :: cs).drop (Trivia.ofText (' ' :: cs)).length =
      cs.drop (Trivia.ofText cs).length := by
    rw [hlen, List.drop_succ_cons]
  cases hd : cs.drop (Trivia.ofText cs).length with
  | nil => rw [ofTextFrom_of_drop_eq_nil hd, ofTextFrom_of_drop_eq_nil (hdrop.trans hd)]
  | cons c rest =>
    rw [ofTextFrom_of_drop hd, ofTextFrom_of_drop (hdrop.trans hd), hlen, List.take_succ_cons, hs,
      Cursor.past_cons]
    rfl

theorem Spelled.alone (h : Spelled g lexeme raw) (hf : lexeme.isFault = false) :
    lexeme.Alone g raw := by
  obtain ⟨token, ht, rfl, hr⟩ := h
  unfold Token.ofText at ht
  cases hd : raw.toList.drop (Trivia.ofText raw.toList).length with
  | nil => rw [Token.ofTextFrom_of_drop_eq_nil hd] at ht; cases ht
  | cons c cs =>
    rw [Token.ofTextFrom_of_drop hd] at ht
    dsimp only at ht
    have hsplit : raw.toList.take (Trivia.ofText raw.toList).length ++ c :: cs = raw.toList := by
      rw [← hd, List.take_append_drop]
    have hlen := congrArg List.length hsplit
    rw [List.length_append, List.length_cons] at hlen
    split at ht
    · obtain ⟨rfl, -⟩ := List.cons.inj ht
      cases hf
    · next ho =>
      have htoken : Token.lexed (Cursor.origin.past
          (raw.toList.take (Trivia.ofText raw.toList).length)) (Lexeme.read g c cs).1
          (Trivia.ofText raw.toList).newline c (cs.take (Lexeme.read g c cs).2) = token := by
        split at ht <;> exact (List.cons.inj ht).1
      have hraw : raw.toList = c :: cs.take (Lexeme.read g c cs).2 := by
        rw [← hr, ← htoken]
        exact String.toList_ofList
      have hcount : raw.toList.length = (cs.take (Lexeme.read g c cs).2).length + 1 := by
        rw [hraw, List.length_cons]
      rw [← htoken] at hf ⊢
      have hle := Lexeme.read_le g c cs
      rw [List.length_take] at hcount
      have hn : (Lexeme.read g c cs).2 = cs.length := by omega
      rw [hn, List.take_length] at hraw
      have htrivia : (Trivia.ofText raw.toList).length = 0 := by
        have hle := Trivia.length_le raw.toList
        rw [List.length_take] at hlen
        omega
      refine ⟨c, cs, hraw, ?_, Prod.ext rfl hn⟩
      rw [← hraw]
      exact Trivia.not_begins_of_length htrivia (by simpa using ho)

/-- The one token of a text that is read as a lexeme to its end. -/
theorem Token.ofText_of_alone (h : lexeme.Alone g raw) :
    ofText g raw.toList = [⟨lexeme, raw, false, ⟨Place.origin, Place.endOf raw.toList⟩⟩] := by
  obtain ⟨c, cs, hraw, hb, hread⟩ := h
  have htoken : lexed Cursor.origin lexeme false c cs =
      ⟨lexeme, raw, false, ⟨Place.origin, Place.endOf raw.toList⟩⟩ := by
    rw [lexed, Place.endOf_eq, hraw, ← hraw, String.ofList_toList]
    rfl
  rw [ofText, hraw, ofTextFrom_of_not_begins hb, hread, ← hraw, ← htoken]
  dsimp only
  rw [List.take_length, List.drop_length, ofTextFrom_nil, ite_self]

theorem Lexeme.Alone.spelled (h : lexeme.Alone g raw) : Spelled g lexeme raw :=
  ⟨_, Token.ofText_of_alone h, rfl, rfl⟩

theorem not_begins_take {c : Char} (h : Trivia.begins (c :: cs) = false) (n : Nat) :
    Trivia.begins (c :: cs.take n) = false := by
  simp only [Trivia.begins, Bool.or_eq_false_iff, Bool.and_eq_false_iff] at h ⊢
  refine h.imp_right (Or.imp_right fun h => ?_)
  cases n with
  | zero => rfl
  | succ n =>
    cases cs with
    | nil => rfl
    | cons d cs => exact h

/-- What is no trivia stays none when a lexeme in front of it ends. -/
theorem not_begins_append {c : Char} (hb : Trivia.begins (c :: cs) = false)
    (h : Lexeme.read g c cs = (lexeme, cs.length)) (he : lexeme.Ends (c :: cs) ds) :
    Trivia.begins (c :: cs ++ ds) = false := by
  cases cs with
  | cons d cs => exact hb
  | nil =>
    have hs : isSpace c = false := by
      simp only [Trivia.begins, Bool.or_eq_false_iff] at hb
      exact hb.1
    by_cases hc : c = '/'
    · subst hc
      have hf : (Lexeme.read g '/' []).1.isFault = false := by
        rw [h]
        exact Lexeme.isFault_of_ends he
      have hslash : Lexeme.beginsOperator '/' = true := by
        rw [Lexeme.beginsOperator_ascii (by decide)]
        rfl
      obtain ⟨op, -, hl, hop⟩ := Lexeme.operator_of_beginsOperator hslash hf
      rw [List.take_nil] at hop
      obtain rfl : op = "/" := String.toList_inj.1 hop
      obtain rfl : lexeme = .operator "/" := by rwa [h] at hl
      cases ds with
      | nil => rfl
      | cons d ds =>
        have hd := he d rfl
        simp only [Symbol.endsBefore, Bool.and_eq_true, Bool.not_eq_true', beq_self_eq_true,
          Bool.true_and] at hd
        simpa [Trivia.begins] using ⟨hs, by simpa using hd.1.2⟩
    · simp [Trivia.begins, hs, hc]

/-- A lexeme in front of a text that it ends before is the first token. -/
theorem Token.ofTextFrom_alone (h : lexeme.Alone g raw) (he : lexeme.Ends raw.toList ds)
    (cursor : Cursor) : ∃ span cursor', ofTextFrom g cursor (raw.toList ++ ds) =
      ⟨lexeme, raw, false, span⟩ :: ofTextFrom g cursor' ds := by
  obtain ⟨c, cs, hraw, hb, hread⟩ := h
  rw [hraw] at he ⊢
  have hf := Lexeme.isFault_of_ends he
  have happend := Lexeme.read_append hread he
  refine ⟨⟨cursor.place, (cursor.past (c :: cs)).place⟩, cursor.past (c :: cs), ?_⟩
  have hb' := not_begins_append hb hread he
  rw [List.cons_append] at hb' ⊢
  rw [ofTextFrom_of_not_begins hb', happend]
  dsimp only
  rw [List.take_left, List.drop_left, if_neg (by simp [hf]), lexed, ← hraw, String.ofList_toList]

/-- A token of a text is a fault, or its characters are that token by themselves. -/
theorem Token.spelled_of_mem {token : Token} {text : List Char} (h : token ∈ ofText g text) :
    token.lexeme.isFault = true ∨ Spelled g token.lexeme token.raw := by
  suffices ∀ (cursor : Cursor) (cs : List Char), token ∈ ofTextFrom g cursor cs →
      token.lexeme.isFault = true ∨ Spelled g token.lexeme token.raw from
    this Cursor.origin text h
  intro cursor cs h
  induction hn : cs.length using Nat.strongRecOn generalizing cursor cs with
  | ind n ih =>
    cases hd : cs.drop (Trivia.ofText cs).length with
    | nil => rw [ofTextFrom_of_drop_eq_nil hd] at h; cases h
    | cons c rest =>
      rw [ofTextFrom_of_drop hd] at h
      dsimp only at h
      split at h
      · rw [List.mem_singleton.1 h]
        exact .inl rfl
      · next ho =>
        split at h
        · next hf =>
          rw [List.mem_singleton.1 h]
          exact .inl hf
        · next hf =>
          have hf : (Lexeme.read g c rest).1.isFault = false := by simpa using hf
          obtain rfl | h := List.mem_cons.1 h
          · have hb : Trivia.begins (c :: rest) = false := by
              rw [← hd]
              exact Trivia.not_begins_drop cs (by simpa using ho)
            have hlen : (rest.take (Lexeme.read g c rest).2).length = (Lexeme.read g c rest).2 :=
              List.length_take_of_le (Lexeme.read_le g c rest)
            refine .inr (Lexeme.Alone.spelled ⟨c, rest.take (Lexeme.read g c rest).2,
              String.toList_ofList, not_begins_take hb _, ?_⟩)
            rw [Lexeme.read_take hf, hlen]
            rfl
          · exact ih _ (hn ▸ length_drop_lt hd _) _ _ h rfl

end

end TemplateExpr
