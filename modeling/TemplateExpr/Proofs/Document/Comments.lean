/-
  Comments in the code of a region. The search for the end of a region knows no comments: it reads
  the quotes and braces in them like all others. So a comment leaves the end where it is if its
  own characters are balanced, and with a quote or a brace of its own it may not.

  * `Laced.join`: tokens laced in two pieces of a text are laced in both, with balanced
    characters between the pieces.
  * `cutBetween_of_blankBetween`: a text without comments can be cut at every offset that is not
    inside a token.
  * `Region.at?_withComment`: the region between two braces, when a comment is put into its code.
-/
import TemplateExpr.Proofs.Document.Enclosed
import TemplateExpr.Proofs.Document.Recovery

namespace TemplateExpr
open Source Text

/-! ## Texts cut in two -/

/-- The offset is not inside the token. -/
def Token.ClearOf (k : Nat) (token : Token) : Prop :=
  token.span.stop.offset ≤ k ∨ k ≤ token.span.start.offset

instance (k : Nat) : DecidablePred (Token.ClearOf k) :=
  fun _ => inferInstanceAs (Decidable (_ ∨ _))

/-- The offset cuts the text at no token, and all that stands between two tokens, or between a
    token and the cut, is balanced: blanks, and comments with balanced characters. -/
def CutBetween (g : Grammar) (code : List Char) (k : Nat) : Prop :=
  ∃ front back, Token.ofText g code = front ++ back ∧
    Laced front (code.take k) ∧ Laced back (code.drop k)

section
variable {front back tokens : List Token} {ds gap es cs : List Char}

theorem Laced.behind (h : Laced tokens cs) (hb : Balanced gap) : Laced tokens (gap ++ cs) := by
  cases tokens with
  | nil => exact hb.append h
  | cons token tokens =>
    obtain ⟨gap', rest, rfl, hg, hd⟩ := h
    exact ⟨gap ++ gap', rest, (List.append_assoc _ _ _).symm, hb.append hg, hd⟩

/-- Between two pieces of a text there may be more balanced characters. -/
theorem Laced.join (hf : Laced front ds) (hg : Balanced gap) (hb : Laced back es) :
    Laced (front ++ back) (ds ++ gap ++ es) := by
  induction front generalizing ds with
  | nil => exact hb.behind (Balanced.append hf hg)
  | cons token front ih =>
    obtain ⟨gap', rest, rfl, hg', hd⟩ := hf
    exact ⟨gap', rest ++ gap ++ es, by simp only [List.append_assoc], hg', ih hd⟩

end

section
variable {g : Grammar} {cursor : Cursor} {cs : List Char} {k : Nat}

/-- Where no token is cut and no comment stands, the tokens are those in front of the offset and
    those behind it. The induction steps over the first token as long as the offset is behind it. -/
theorem spaced_take_drop
    (hf : ∀ token ∈ Token.ofTextFrom g cursor cs, token.lexeme.isFault = false)
    (hb : BlankFrom g cursor cs)
    (hk : ∀ token ∈ Token.ofTextFrom g cursor cs, token.ClearOf (cursor.place.offset + k)) :
    ∃ front back, Token.ofTextFrom g cursor cs = front ++ back ∧
      Spaced front (cs.take k) ∧ Spaced back (cs.drop k) := by
  induction hn : cs.length using Nat.strongRecOn generalizing cursor cs k with
  | ind n ih =>
    obtain hnil | ⟨trivia, token, rest, h⟩ := Token.ofTextFrom_cases hf
    · have hblank := spaced_of_blankFrom hf hb
      rw [hnil] at hblank ⊢
      exact ⟨[], [], rfl, fun c hc => hblank c (List.mem_of_mem_take hc),
        fun c hc => hblank c (List.mem_of_mem_drop hc)⟩
    · rw [h.tokens, List.forall_mem_cons] at hf hk
      have hblank := hb.blank_trivia h
      obtain hbehind | hbefore := hk.1
      · -- the token is in front of the offset
        rw [h.stop_eq] at hbehind
        have hlength : (trivia ++ token.raw.toList).length =
            trivia.length + token.raw.toList.length := List.length_append
        have hrest : ∀ other ∈ Token.ofTextFrom g (cursor.past (trivia ++ token.raw.toList)) rest,
            other.ClearOf ((cursor.past (trivia ++ token.raw.toList)).place.offset +
              (k - (trivia ++ token.raw.toList).length)) := by
          have hoffset : (cursor.past (trivia ++ token.raw.toList)).place.offset +
              (k - (trivia ++ token.raw.toList).length) = cursor.place.offset + k := by
            rw [Cursor.offset_past]
            omega
          rw [hoffset]
          exact hk.2
        obtain ⟨front, back, htokens, hfront, hback⟩ :=
          ih _ (hn ▸ h.shorter) hf.2 (hb.behind h) hrest rfl
        have htext : cs = trivia ++ token.raw.toList ++ rest := by
          rw [h.text, List.append_assoc]
        have hle : (trivia ++ token.raw.toList).length ≤ k := by omega
        refine ⟨token :: front, back, by rw [h.tokens, htokens, List.cons_append], ?_, ?_⟩
        · refine ⟨trivia, rest.take (k - (trivia ++ token.raw.toList).length), ?_, hblank, hfront⟩
          rw [htext, List.take_append, List.take_of_length_le hle, List.append_assoc]
        · rw [htext, List.drop_append, List.drop_of_length_le hle]
          exact hback
      · -- the offset is in front of the token
        rw [h.start_eq] at hbefore
        have hle : k ≤ trivia.length := by omega
        have hrest := spaced_of_blankFrom hf.2 (hb.behind h)
        refine ⟨[], _, h.tokens, ?_, trivia.drop k, rest, ?_, ?_, hrest⟩
        · rw [h.text, List.take_append_of_le_length hle]
          exact fun c hc => hblank c (List.mem_of_mem_take hc)
        · rw [h.text, List.drop_append_of_le_length hle]
        · exact fun c hc => hblank c (List.mem_of_mem_drop hc)

/-- A text without comments and faults can be cut at every offset that is not inside a token. -/
theorem cutBetween_of_blankBetween {code : List Char}
    (hf : ∀ token ∈ Token.ofText g code, token.lexeme.isFault = false)
    (hb : BlankBetween g code) (hk : ∀ token ∈ Token.ofText g code, token.ClearOf k) :
    CutBetween g code k := by
  have hclear : ∀ token ∈ Token.ofTextFrom g Cursor.origin code,
      token.ClearOf (Cursor.origin.place.offset + k) := by
    have hoffset : Cursor.origin.place.offset + k = k := Nat.zero_add k
    rw [hoffset]
    exact hk
  obtain ⟨front, back, htokens, hfront, hback⟩ := spaced_take_drop hf hb.blankFrom hclear
  exact ⟨front, back, htokens, hfront.laced, hback.laced⟩

end

/-! ## Comments put into a text -/

/-- The code with a comment at the offset. -/
def withComment (code : List Char) (k : Nat) (comment : List Char) : List Char :=
  code.take k ++ ("/*".toList ++ comment ++ "*/".toList) ++ code.drop k

section
variable {g : Grammar} {origin : Option Origin} {url : Option String} {code comment : List Char}
  {k : Nat} {p : Program}

/-- A balanced comment between its tokens leaves the characters of a program balanced. -/
theorem Program.balanced_withComment (h : Program.ofText g origin url code = .ok p)
    (hk : CutBetween g code k) (hc : Balanced comment) : Balanced (withComment code k comment) := by
  obtain ⟨front, back, htokens, hfront, hback⟩ := hk
  have hends : Balanced ("/*".toList ++ comment ++ "*/".toList) :=
    (Balanced.append (by decide) hc).append (by decide)
  have hlaced := hfront.join hends hback
  rw [← htokens] at hlaced
  exact Program.balanced_of_laced h hlaced

/-- With a comment put into a program, the region between two braces is the program with its
    comment if and only if that is balanced. So it is, wherever it is put between the tokens, if
    the comment is balanced and so is all that stood between the tokens before, be the result a
    program or not. In a program without comments that is every offset but those inside tokens. -/
theorem Region.at?_withComment (h : Program.ofText g origin url code = .ok p) :
    (∀ k comment, let commented := withComment code k comment
      at? ('{' :: (commented ++ ['}'])) 0 =
          .ok (some ⟨commented, ⟨1, 0, 1⟩, 0, commented.length + 2⟩) ↔ Balanced commented) ∧
    (∀ k comment, CutBetween g code k → Balanced comment →
      let commented := withComment code k comment
      at? ('{' :: (commented ++ ['}'])) 0 =
        .ok (some ⟨commented, ⟨1, 0, 1⟩, 0, commented.length + 2⟩)) ∧
    (BlankBetween g code → ∀ k, (∀ token ∈ Token.ofText g code, token.ClearOf k) →
      CutBetween g code k) :=
  ⟨fun _ _ => Region.at?_zero_iff,
    fun _ _ hk hc => Region.at?_zero_iff.2 (Program.balanced_withComment h hk hc),
    fun hb _ hk => cutBetween_of_blankBetween (Program.faultless_of_ofText h) hb hk⟩

end

/-- A comment with a brace and with quotes in pairs, inside an object and between two texts. -/
theorem at?_withComment_pairs :
    let code := "f(\x7ba: 'b' + \"\x7d\"\x7d)".toList
    let comment := "it's \x7b or \x7d, isn't \x7bit\x7d".toList
    let commented := withComment code 9 comment
    (Program.ofText .template none none code).isOk = true ∧ BlankBetween .template code ∧
    (∀ token ∈ Token.ofText .template code, token.ClearOf 9) ∧ Balanced comment ∧
    Region.at? ('{' :: (commented ++ ['}'])) 0 =
      .ok (some ⟨commented, ⟨1, 0, 1⟩, 0, commented.length + 2⟩) := by
  intro code comment commented
  have hok : (Program.ofText .template none none code).isOk = true := by decide +kernel
  have hb : BlankBetween .template code := by decide +kernel
  have hk : ∀ token ∈ Token.ofText .template code, token.ClearOf 9 := by decide +kernel
  have hc : Balanced comment := by decide
  refine ⟨hok, hb, hk, hc, ?_⟩
  obtain ⟨p, h⟩ := Production.exists_eq_ok_of_isOk hok
  have hregion := Region.at?_withComment h
  exact hregion.2.1 9 comment (hregion.2.2 hb 9 hk) hc

/-- An apostrophe in a comment behind the name `a`: the result is read as a program, but the
    region has no end, as the quote has none. With a brace instead the region ends at the brace. -/
theorem at?_withComment_slips :
    let code := "a".toList
    let quoted := withComment code 1 "'".toList
    let braced := withComment code 1 "\x7d".toList
    (Program.ofText .template none none code).isOk = true ∧
    (∀ token ∈ Token.ofText .template code, token.ClearOf 1) ∧
    ¬ "*/".toList <:+: "'".toList ∧ ¬ "*/".toList <:+: "\x7d".toList ∧
    (Program.ofText .template none none quoted).isOk = true ∧
    (Program.ofText .template none none braced).isOk = true ∧
    Region.at? ('{' :: (quoted ++ ['}'])) 0 = .error ⟨.openBrace, ⟨0, ⟨1, 0⟩⟩, none⟩ ∧
    Region.at? ('{' :: (braced ++ ['}'])) 0 = .ok (some ⟨"a/*".toList, ⟨1, 0, 1⟩, 0, 5⟩) := by
  intro code quoted braced
  exact ⟨by decide +kernel, by decide +kernel, by decide, by decide, by decide +kernel,
    by decide +kernel, by rfl, by rfl⟩

end TemplateExpr
