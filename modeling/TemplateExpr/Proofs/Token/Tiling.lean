/-
  The tokens of a text tile it. In front of each of them stand only blanks and comments, which
  tell whether a line ends there; each is the characters between its ends, where its span says;
  and nothing is read behind a fault.

  * `Trivia.gap_ofText`: the trivia at the front of a text is a gap.
  * `laid_ofTextFrom`: one step of the reader lays one token behind a gap, and so it goes on.
  * `Laid.split`: what is said of the first token holds of every token, behind those before it.
  * `Token.tiles_ofText`: the offsets, positions and texts of the tokens.
  * `Token.rawIn_of_mem`: in a document, too, a token is the characters that its span covers.
-/
import TemplateExpr.Proofs.Token.Spelled

namespace TemplateExpr
open Source Text

/-! ## Gaps -/

/-- Blanks, comments up to the end of their line, and comments that are closed. The line of a
    comment may lack an end only where the text ends, in a `final` gap. -/
inductive Gap (final : Bool) : List Char → Prop
  | nil : Gap final []
  | blank {c cs} : isSpace c = true → Gap final cs → Gap final (c :: cs)
  | line {body cs} : (∀ c ∈ body, isNewline c = false) →
    cs.head?.any isNewline = true ∨ (final = true ∧ cs = []) → Gap final cs →
    Gap final ('/' :: '/' :: (body ++ cs))
  | block {body cs} : ¬ ['*', '/'] <:+: body → Gap final cs →
    Gap final ('/' :: '*' :: (body ++ '*' :: '/' :: cs))

namespace Trivia

/-- Up to its end a comment has no other end. -/
theorem take_of_closing? {cs : List Char} {n : Nat} (h : closing? cs = some n) :
    ∃ body, cs.take n = body ++ ['*', '/'] ∧ ¬ ['*', '/'] <:+: body := by
  induction cs using closing?.induct generalizing n with
  | case1 => cases h
  | case2 => cases h; exact ⟨[], rfl, by decide⟩
  | case3 c cs hc ih =>
    rw [closing?] at h
    · obtain ⟨m, hm, rfl⟩ := Option.map_eq_some_iff.1 h
      obtain ⟨body, htake, hbody⟩ := ih hm
      refine ⟨c :: body, by rw [List.take_succ_cons, htake]; rfl, fun hinfix => ?_⟩
      obtain hprefix | hinfix := List.infix_cons_iff.1 hinfix
      · -- the two characters would stand at the front already
        obtain ⟨rfl, more, rfl⟩ := List.cons_prefix_cons.1 hprefix
        refine hc (more ++ ['*', '/'] ++ cs.drop m) rfl ?_
        have hsplit := (List.take_append_drop m cs).symm
        rw [htake] at hsplit
        exact hsplit
      · exact hbody hinfix
    · exact hc

/-- Behind the characters of a line the line ends, or the text. -/
theorem head?_drop_lineLength (cs : List Char) :
    (cs.drop (lineLength cs)).head?.any isNewline = true ∨ cs.drop (lineLength cs) = [] := by
  have hnot := List.head?_dropWhile_not (fun c => !isNewline c) cs
  have hdrop : cs.drop (lineLength cs) = cs.dropWhile fun c => !isNewline c :=
    calc cs.drop (lineLength cs)
      _ = ((cs.takeWhile fun c => !isNewline c) ++ cs.dropWhile fun c => !isNewline c).drop
          (lineLength cs) := by rw [List.takeWhile_append_dropWhile]
      _ = cs.dropWhile fun c => !isNewline c := List.drop_left
  rw [hdrop]
  cases hd : cs.dropWhile fun c => !isNewline c with
  | nil => exact .inr rfl
  | cons c rest =>
    rw [hd] at hnot
    exact .inl (by simpa using hnot)

theorem take_behind (c d : Char) (cs : List Char) (m n : Nat) :
    (c :: d :: cs).take (2 + m + n) = c :: d :: (cs.take m ++ (cs.drop m).take n) := by
  rw [Nat.add_assoc, Nat.add_comm 2, List.take_succ_cons, List.take_succ_cons, List.take_add]

theorem drop_behind (c d : Char) (cs : List Char) (m n : Nat) :
    (c :: d :: cs).drop (2 + m + n) = (cs.drop m).drop n := by
  rw [Nat.add_assoc, Nat.add_comm 2, List.drop_succ_cons, List.drop_succ_cons, List.drop_drop]

/-- The trivia at the front of a text is a gap, and says whether a line ends in it. -/
theorem gap_ofText (cs : List Char) :
    Gap (cs.drop (ofText cs).length).isEmpty (cs.take (ofText cs).length) ∧
      (ofText cs).newline = (cs.take (ofText cs).length).any isNewline := by
  induction cs using ofText.induct with
  | case1 => exact ⟨by rw [List.take_nil]; exact .nil, by simp [ofText, empty]⟩
  | case2 cs ih =>
    have hbody : ∀ c ∈ cs.take (lineLength cs), isNewline c = false := by
      intro c hc
      simpa using of_mem_take_takeWhile hc
    rw [ofText]
    dsimp only [behind]
    rw [take_behind, drop_behind]
    refine ⟨.line hbody ?_ ih.1, ?_⟩
    · obtain hend | hend := head?_drop_lineLength cs
      · -- the end of the line is blank, so the gap goes on with it
        obtain ⟨c, rest, hrest⟩ : ∃ c rest, cs.drop (lineLength cs) = c :: rest := by
          cases hd : cs.drop (lineLength cs) with
          | nil => rw [hd] at hend; cases hend
          | cons c rest => exact ⟨c, rest, rfl⟩
        rw [hrest] at hend ⊢
        rw [ofText_cons_of_isSpace (isSpace_of_isNewline hend)]
        dsimp only [behind]
        rw [Nat.add_comm 1, List.take_succ_cons]
        exact .inl hend
      · rw [hend, ofText]
        exact .inr ⟨rfl, rfl⟩
    · have hline : (cs.take (lineLength cs)).any isNewline = false := by
        rw [List.any_eq_false]
        intro c hc
        simp [hbody c hc]
      rw [ih.2]
      simp [isNewline, hline]
  | case3 cs n hn ih =>
    obtain ⟨body, htake, hbody⟩ := take_of_closing? hn
    rw [ofText, hn]
    dsimp only [behind]
    rw [take_behind, drop_behind, htake]
    refine ⟨?_, ?_⟩
    · rw [List.append_assoc]
      exact .block hbody ih.1
    · rw [ih.2]
      simp [isNewline]
  | case4 cs hn =>
    rw [ofText, hn]
    exact ⟨.nil, rfl⟩
  | case5 c cs h1 h2 hc ih =>
    rw [ofText, if_pos hc]
    · dsimp only [behind]
      rw [Nat.add_comm 1, List.take_succ_cons, List.drop_succ_cons, List.any_cons, ih.2]
      exact ⟨.blank hc ih.1, rfl⟩
    all_goals assumption
  | case6 c cs h1 h2 hc =>
    rw [ofText, if_neg hc]
    · exact ⟨.nil, rfl⟩
    all_goals assumption

end Trivia

/-! ## Tokens behind gaps -/

/-- Where the last of the tokens ends; without tokens, the given place. -/
def Token.endOf (start : Place) (tokens : List Token) : Place :=
  tokens.foldl (fun _ token => token.span.stop) start

/-- The token stands behind the gap that begins at the cursor. -/
structure Token.LiesBehind (cursor : Cursor) (gap : List Char) (token : Token) : Prop where
  blank : Gap false gap
  nonempty : token.raw.toList ≠ []
  span : token.span = ⟨(cursor.past gap).place, (cursor.past (gap ++ token.raw.toList)).place⟩
  newline : token.lexeme ≠ .fault .openComment → token.newlineBefore = gap.any isNewline
  spelling : ∀ word, token.lexeme.spelling? = some word → token.raw = word

/-- The characters that the cursor stands before are the tokens, each behind a gap, and a gap at
    the end. Only behind a fault there may be anything. -/
inductive Laid : Cursor → List Char → List Token → Prop
  | rest {cursor cs} : Gap true cs → Laid cursor cs []
  | fault {cursor gap token after} :
    token.lexeme.isFault = true → token.LiesBehind cursor gap →
    Laid cursor (gap ++ (token.raw.toList ++ after)) [token]
  | token {cursor gap token after tokens} :
    token.lexeme.isFault = false → token.LiesBehind cursor gap →
    Laid (cursor.past (gap ++ token.raw.toList)) after tokens →
    Laid cursor (gap ++ (token.raw.toList ++ after)) (token :: tokens)

section
variable {g : Grammar} {cursor : Cursor} {cs : List Char}

/-- The token that a lexeme makes stands behind the trivia. -/
theorem Token.liesBehind_lexed {gap : List Char} (hgap : Gap false gap) {lexeme : Lexeme}
    {newline : Bool} (hn : lexeme ≠ .fault .openComment → newline = gap.any isNewline) {c : Char}
    {taken : List Char}
    (hs : ∀ word, lexeme.spelling? = some word → String.ofList (c :: taken) = word) :
    (lexed (cursor.past gap) lexeme newline c taken).LiesBehind cursor gap where
  blank := hgap
  nonempty := by simp [lexed]
  span := by rw [span_lexed, lexed, String.toList_ofList, Cursor.past_append]
  newline := hn
  spelling := hs

/-- The reader of tokens lays them. -/
theorem laid_ofTextFrom (g : Grammar) (cursor : Cursor) (cs : List Char) :
    Laid cursor cs (Token.ofTextFrom g cursor cs) := by
  induction hn : cs.length using Nat.strongRecOn generalizing cursor cs with
  | ind n ih =>
    obtain ⟨hgap, hnewline⟩ := Trivia.gap_ofText cs
    cases hd : cs.drop (Trivia.ofText cs).length with
    | nil =>
      have hall : cs.take (Trivia.ofText cs).length = cs :=
        List.take_of_length_le (List.drop_eq_nil_iff.1 hd)
      rw [Token.ofTextFrom_of_drop_eq_nil hd]
      rw [hd, hall] at hgap
      exact .rest hgap
    | cons c rest =>
      rw [hd] at hgap
      have hcs : cs.take (Trivia.ofText cs).length ++ c :: rest = cs := by
        rw [← hd, List.take_append_drop]
      rw [Token.ofTextFrom_of_drop hd]
      dsimp only
      split
      · -- a comment without end takes all that is left
        have hbehind := @Token.liesBehind_lexed cursor _ hgap (.fault .openComment) false
          (fun h => absurd rfl h) c rest (fun _ h => by cases h)
        have hlaid := @Laid.fault _ _ _ [] rfl hbehind
        rwa [List.append_nil, Token.lexed, String.toList_ofList, hcs] at hlaid
      · have hread : c :: rest.take (Lexeme.read g c rest).2 ++
            rest.drop (Lexeme.read g c rest).2 = c :: rest := by
          rw [List.cons_append, List.take_append_drop]
        have hbehind := @Token.liesBehind_lexed cursor _ hgap (Lexeme.read g c rest).1
          (Trivia.ofText cs).newline (fun _ => hnewline) c (rest.take (Lexeme.read g c rest).2)
          (fun _ => Lexeme.spelling_read)
        split
        · next hf =>
          have hlaid := @Laid.fault _ _ _ (rest.drop (Lexeme.read g c rest).2) hf hbehind
          rwa [Token.lexed, String.toList_ofList, hread, hcs] at hlaid
        · next hf =>
          have hlen : (rest.drop (Lexeme.read g c rest).2).length < n := by
            rw [← hn, ← hcs, List.length_append, List.length_cons, List.length_drop]
            omega
          have hlaid := Laid.token (by simpa [Token.lexed] using hf) hbehind
            (ih _ hlen _ (rest.drop (Lexeme.read g c rest).2) rfl)
          rw [Token.lexed, String.toList_ofList, hread, hcs, Cursor.past_append] at hlaid
          exact hlaid

variable {tokens front back : List Token} {token : Token}

/-- Each of the tokens stands behind a gap that begins where the token before it ends. -/
theorem Laid.split (h : Laid cursor cs (front ++ token :: back)) :
    ∃ before gap after, cs = before ++ (gap ++ (token.raw.toList ++ after)) ∧
      Token.endOf cursor.place front = (cursor.past before).place ∧
      token.LiesBehind (cursor.past before) gap ∧
      (token.lexeme.isFault = true → back = []) := by
  induction front generalizing cursor cs with
  | nil =>
    cases h with
    | @fault _ gap _ after hf hbehind =>
      exact ⟨[], gap, after, rfl, rfl, hbehind, fun _ => rfl⟩
    | @token _ gap _ after _ hf hbehind hrest =>
      exact ⟨[], gap, after, rfl, rfl, hbehind, fun hfault => by rw [hf] at hfault; cases hfault⟩
  | cons first front ih =>
    obtain ⟨tokens, htokens⟩ : ∃ tokens, tokens = front ++ token :: back := ⟨_, rfl⟩
    rw [List.cons_append, ← htokens] at h
    cases h with
    | fault => exact absurd htokens.symm (by simp)
    | @token _ gap _ after _ hf hbehind hrest =>
      rw [htokens] at hrest
      obtain ⟨before, gap', after', rfl, hend, hbehind', hlast⟩ := ih hrest
      refine ⟨gap ++ first.raw.toList ++ before, gap', after', by simp, ?_, ?_, hlast⟩
      · rw [Cursor.past_append, ← hend]
        exact congrArg (Token.endOf · front) (congrArg Span.stop hbehind.span)
      · rw [Cursor.past_append]
        exact hbehind'

/-- Behind the last of the tokens stands nothing but a gap, unless it is a fault. -/
theorem Laid.trailing (h : Laid cursor cs tokens)
    (hf : ∀ token ∈ tokens, token.lexeme.isFault = false) :
    ∃ before gap, cs = before ++ gap ∧
      Token.endOf cursor.place tokens = (cursor.past before).place ∧ Gap true gap := by
  induction h with
  | @rest cursor cs hgap => exact ⟨[], cs, rfl, rfl, hgap⟩
  | @fault cursor gap token after hfault =>
    have hno := hf token List.mem_cons_self
    rw [hfault] at hno
    cases hno
  | @token cursor gap token after tokens _ hbehind _ ih =>
    obtain ⟨before, gap', rfl, hend, hgap⟩ := ih fun t ht => hf t (List.mem_cons_of_mem _ ht)
    refine ⟨gap ++ token.raw.toList ++ before, gap', by simp, ?_, hgap⟩
    rw [Cursor.past_append, ← hend]
    exact congrArg (Token.endOf · tokens) (congrArg Span.stop hbehind.span)

end

/-! ## The tiling of a text -/

/-- Behind the first characters of a text, the place counts them and has their position. -/
theorem Source.Cursor.place_past_origin (before after : List Char) :
    (origin.past before).place = ⟨before.length, positionAt (before ++ after) before.length⟩ := by
  have hoffset : (origin.past before).place.offset = before.length := by
    rw [offset_past]
    exact Nat.zero_add _
  rw [positionAt, List.take_left, ← hoffset]

/-- A piece of a text is what stands between the places before and behind it. -/
theorem Source.Span.textIn_of_append (before piece after : List Char) :
    Span.textIn ⟨(Cursor.origin.past before).place, (Cursor.origin.past (before ++ piece)).place⟩
      (before ++ (piece ++ after)) = piece := by
  have hoffset : ∀ cs : List Char, (Cursor.origin.past cs).place.offset = cs.length := fun cs => by
    rw [Cursor.offset_past]
    exact Nat.zero_add _
  rw [Span.textIn]
  dsimp only
  rw [hoffset, hoffset, List.drop_left, List.length_append, Nat.add_sub_cancel_left,
    List.take_left]

/-- The characters of a text that a span of its document covers, when the text begins at the
    offset `base` there. A span that leaves the text covers none of them. -/
def Source.Span.rawIn (base : Nat) (text : List Char) (span : Span) : List Char :=
  let start := span.start.offset - base
  let stop := span.stop.offset - base
  if start ≤ stop ∧ stop ≤ text.length then text.extract start stop else []

/-- The place is the one that many characters into the text. -/
def Source.Place.IsIn (text : List Char) (place : Place) : Prop :=
  place.position = positionAt text place.offset

/-- The tokens tile the text: they and the gaps between them are all of it. -/
structure Token.Tiles (text : List Char) (tokens : List Token) : Prop where
  /-- Every token has characters of the text. -/
  inside : ∀ token ∈ tokens, token.span.start.offset < token.span.stop.offset ∧
    token.span.stop.offset ≤ text.length
  /-- No token begins before the one in front of it has ended. -/
  apart : tokens.Pairwise fun a b => a.span.stop.offset ≤ b.span.start.offset
  positions : ∀ token ∈ tokens, token.span.start.IsIn text ∧ token.span.stop.IsIn text
  /-- In front of every token stands a gap, which tells whether a line ends before the token. -/
  gaps : ∀ front token back, tokens = front ++ token :: back →
    Gap false (Span.textIn ⟨endOf Place.origin front, token.span.start⟩ text) ∧
    (token.lexeme ≠ .fault .openComment → token.newlineBefore =
      (Span.textIn ⟨endOf Place.origin front, token.span.start⟩ text).any isNewline)
  /-- Nothing is read behind a fault. -/
  fault_last : ∀ front token back, tokens = front ++ token :: back →
    token.lexeme.isFault = true → back = []
  /-- Without a fault, only a gap is left at the end. -/
  rest : (∀ token ∈ tokens, token.lexeme.isFault = false) →
    Gap true (text.drop (endOf Place.origin tokens).offset)
  /-- The text of every token that is no text literal is the characters between its ends. -/
  written : ∀ token ∈ tokens, token.lexeme.isFault = false →
    (∀ value, token.lexeme ≠ .text value) → token.text.toList = token.span.textIn text
  /-- Names, keywords, operators and marks are those characters. -/
  spelling : ∀ token ∈ tokens, ∀ word, token.lexeme.spelling? = some word →
    word.toList = token.span.textIn text

namespace Token
variable {g : Grammar} {text : List Char} {tokens : List Token} {token : Token}

/-- Every span of the reader is the characters of its token. -/
theorem standsIn_of_mem (h : token ∈ ofText g text) :
    token.span.textIn text = token.raw.toList ∧ token.span.start.IsIn text ∧
      token.span.stop.IsIn text ∧ token.span.stop.offset ≤ text.length := by
  obtain ⟨before, after, rfl, hspan⟩ := cut_of_mem h
  rw [hspan]
  refine ⟨Span.textIn_of_append before _ after, ?_, ?_, ?_⟩
  · rw [Cursor.place_past_origin before (token.raw.toList ++ after)]
    rfl
  · rw [← List.append_assoc, Cursor.place_past_origin (before ++ token.raw.toList) after]
    rfl
  · rw [Cursor.place_past_origin (before ++ token.raw.toList) after, ← List.append_assoc]
    exact (List.prefix_append _ after).length_le

/-- The characters of a token can be told from its span in the document, if the text fits in. -/
theorem rawIn_of_mem {origin : Option Origin} (hfit : FitsWithin origin text)
    (h : token ∈ ofTextWithin g origin text) :
    token.span.rawIn (offsetWithin origin 0) text = token.raw.toList := by
  obtain ⟨original, ho, rfl⟩ := List.mem_map.1 h
  have hlt := ((ascending_ofTextFrom g Cursor.origin text).forward original ho).2
  obtain ⟨hraw, -, -, hle⟩ := standsIn_of_mem ho
  have hmoved : ∀ {n : Nat}, n ≤ text.length → offsetWithin origin n - offsetWithin origin 0 = n :=
    fun hn => by rw [offsetWithin_of_le hfit hn, Nat.add_sub_cancel]
  rw [span_mapSpan, Span.rawIn, Span.offset_start_within, Span.offset_stop_within, hmoved hle,
    hmoved (Nat.le_trans (Nat.le_of_lt hlt) hle), if_pos ⟨Nat.le_of_lt hlt, hle⟩]
  exact hraw

theorem text_eq_raw (hf : token.lexeme.isFault = false) (ht : ∀ value, token.lexeme ≠ .text value) :
    token.text = token.raw := by
  unfold text
  cases hl : token.lexeme with
  | text value => exact absurd hl (ht value)
  | fault =>
    rw [hl] at hf
    cases hf
  | _ => rfl

end Token

/-- The tokens of a text tile it, under every grammar. -/
theorem Token.tiles_ofText (g : Grammar) (text : List Char) : Tiles text (ofText g text) := by
  have hlaid : Laid Cursor.origin text (ofText g text) := laid_ofTextFrom g _ _
  have hascending := ascending_ofTextFrom g Cursor.origin text
  refine ⟨fun token h => ⟨(hascending.forward token h).2, (standsIn_of_mem h).2.2.2⟩,
    hascending.apart,
    fun token h => ⟨(standsIn_of_mem h).2.1, (standsIn_of_mem h).2.2.1⟩, ?_, ?_, ?_, ?_, ?_⟩
  · intro front token back htokens
    rw [htokens] at hlaid
    obtain ⟨before, gap, after, htext, hend, hbehind, -⟩ := hlaid.split
    have hgap : Span.textIn ⟨endOf Place.origin front, token.span.start⟩ text = gap := by
      rw [hbehind.span, ← Cursor.past_append, htext]
      change endOf Place.origin front = _ at hend
      rw [hend]
      exact Span.textIn_of_append before gap _
    rw [hgap]
    exact ⟨hbehind.blank, hbehind.newline⟩
  · intro front token back htokens
    rw [htokens] at hlaid
    obtain ⟨_, _, _, _, _, _, hlast⟩ := hlaid.split
    exact hlast
  · intro hf
    obtain ⟨before, gap, htext, hend, hgap⟩ := hlaid.trailing hf
    change endOf Place.origin _ = _ at hend
    rw [hend, Cursor.place_past_origin before gap, htext, List.drop_left]
    exact hgap
  · intro token h hf ht
    rw [text_eq_raw hf ht, (standsIn_of_mem h).1]
  · intro token h word hword
    obtain ⟨front, back, htokens⟩ := List.append_of_mem h
    rw [htokens] at hlaid
    obtain ⟨_, _, _, _, _, hbehind, -⟩ := hlaid.split
    rw [(standsIn_of_mem h).1, hbehind.spelling word hword]

end TemplateExpr
