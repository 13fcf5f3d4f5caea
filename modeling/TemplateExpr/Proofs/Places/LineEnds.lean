/-
  Line feeds against pairs of a carriage return and a line feed. The tokens of the two texts are
  the same but for their offsets, up to the first text literal that goes over a line feed; it has
  no end where each line feed has a carriage return before it, and nothing is read behind it. So
  the programs are the same but for their offsets, or there is no program where the pairs are.

  * `Token.agree_ofTextFrom`: the tokens; `AgreeToBreak` says how far they agree.
  * `Program.unplaced_crlf`: the programs.
  * `Program.ofText_lineEnds`: both.
-/
import Mathlib.Data.List.Forall2
import TemplateExpr.Proofs.Grammar.Faults
import TemplateExpr.Proofs.Token.LineEnds

namespace TemplateExpr
open Source Text Production

/-! ## Tokens -/

namespace Token

/-- The tokens are the same, but for the offsets that they stand at; a fault may have other
    characters. -/
structure SameButOffsets (a b : Token) : Prop where
  lexeme : a.lexeme = b.lexeme
  text : a.text = b.text
  raw : b.lexeme.isFault = false → a.raw = b.raw
  newlineBefore : a.newlineBefore = b.newlineBefore
  start : a.span.start.position = b.span.start.position
  stop : a.span.stop.position = b.span.stop.position

/-- A text literal, closed or not, that a line feed stands in before its last character. -/
def BreaksLine (token : Token) : Prop :=
  token.raw.toList.head?.any isQuote = true ∧ Broken token.raw.toList

instance (token : Token) : Decidable token.BreaksLine :=
  inferInstanceAs (Decidable (_ ∧ _))

/-- The tokens of the first list are those of the second one, but for their offsets, up to the
    first one that goes over a line feed. In its place there is a literal without end, which
    ends elsewhere, and then nothing. -/
inductive AgreeToBreak : List Token → List Token → Prop
  | nil : AgreeToBreak [] []
  | cons {a b as bs} : a.SameButOffsets b → ¬ b.BreaksLine → AgreeToBreak as bs →
    AgreeToBreak (a :: as) (b :: bs)
  | cut {a b bs} : a.lexeme = .fault .openText → b.BreaksLine →
    a.span.stop.position ≠ b.span.stop.position → AgreeToBreak [a] (b :: bs)

theorem AgreeToBreak.same_iff {as bs : List Token} (h : AgreeToBreak as bs) :
    List.Forall₂ SameButOffsets as bs ↔ ∀ token ∈ bs, ¬ token.BreaksLine := by
  induction h with
  | nil => exact ⟨fun _ => List.forall_mem_nil _, fun _ => .nil⟩
  | cons hs hb _ ih =>
    rw [List.forall₂_cons, List.forall_mem_cons, ih]
    exact and_congr ⟨fun _ => hb, fun _ => hs⟩ Iff.rfl
  | cut _ hb hstop =>
    refine ⟨fun h => ?_, fun h => absurd hb (h _ List.mem_cons_self)⟩
    cases h with
    | cons hs _ => exact absurd hs.stop hstop

/-- What goes over a line feed is a fault. -/
theorem AgreeToBreak.fault {as bs : List Token} (h : AgreeToBreak as bs)
    (hb : ∃ token ∈ bs, token.BreaksLine) : ∃ token ∈ as, token.lexeme.isFault = true := by
  induction h with
  | nil => obtain ⟨token, hm, -⟩ := hb; cases hm
  | cons hs hn _ ih =>
    obtain ⟨token, hm, hbreaks⟩ := hb
    obtain rfl | hm := List.mem_cons.1 hm
    · exact absurd hbreaks hn
    · obtain ⟨token, hm, hf⟩ := ih ⟨token, hm, hbreaks⟩
      exact ⟨token, List.mem_cons_of_mem _ hm, hf⟩
  | cut hlexeme _ _ => exact ⟨_, List.mem_cons_self, by rw [hlexeme]; rfl⟩

variable {g : Grammar} {a b : Cursor} {cs : List Char} {c : Char}

/-- A lexeme that is not broken ends at the same position. -/
theorem stop_crlf (h : a.Level b) (hcs : '\r' ∉ cs) {n : Nat} (hn : n ≤ cs.length)
    (hb : ¬ Broken (cs.take n)) :
    (a.past ((crlf cs).take n)).place.position = (b.past (cs.take n)).place.position := by
  by_cases hm : '\n' ∈ cs.take n
  · -- the line feed is the last character, and the other text has the carriage return there
    obtain ⟨line, more, htake, hno⟩ := List.eq_append_cons_of_mem hm
    obtain rfl : more = [] := by
      by_contra hmore
      rw [htake, Broken, List.dropLast_append_cons, List.dropLast_cons_of_ne_nil hmore] at hb
      exact hb (List.mem_append_right _ List.mem_cons_self)
    have hlen : n = line.length + 1 := by
      rw [← List.length_take_of_le hn, htake, List.length_append, List.length_singleton]
    have hcrlf : (crlf cs).take n = line ++ ['\r'] := by
      rw [← List.take_append_drop n cs, htake, crlf_append, crlf_append, crlf_of_not_mem hno, hlen,
        List.append_assoc, List.take_length_add_append]
      rfl
    have hline : '\r' ∉ line := fun hr =>
      hcs (List.mem_of_mem_take (htake ▸ List.mem_append_left _ hr))
    rw [hcrlf, htake, Cursor.past_append, Cursor.past_append]
    exact (h.past_line hno hline).step_return
  · rw [(take_drop_crlf_of_not_mem hn hm).1]
    exact (h.past_line hm fun hr => hcs (List.mem_of_mem_take hr)).position

/-- A broken literal ends behind the place that it is cut at. -/
theorem stop_cutAt (h : a.Level b) (hcs : '\r' ∉ cs) {n : Nat} (hb : Broken (cs.take n)) :
    (a.past ((crlf cs).take (Literal.cutAt cs).2)).place.position ≠
      (b.past (cs.take n)).place.position := by
  obtain ⟨line, more, htake, hno, hmore⟩ := hb.split
  have hsplit : cs = line ++ '\n' :: (more ++ cs.drop n) := by
    rw [← List.cons_append, ← List.append_assoc, ← htake, List.take_append_drop]
  have hreturn : '\r' ∉ line ∧ '\r' ∉ more := by
    have hr : '\r' ∉ line ++ '\n' :: more := htake ▸ fun hr => hcs (List.mem_of_mem_take hr)
    rw [List.mem_append, List.mem_cons, not_or, not_or] at hr
    exact ⟨hr.1, hr.2.2⟩
  have hcut : (crlf cs).take (Literal.cutAt cs).2 = line ++ ['\r'] := by
    have hline : cs.takeWhile (· != '\n') = line := by
      rw [hsplit, takeWhile_line hno]
      exact List.append_nil line
    rw [Literal.cutAt, hline, hsplit, crlf_append, crlf_of_not_mem hno,
      List.take_length_add_append]
    rfl
  have hbehind := Cursor.before_past (b := (b.past line).step '\n') (by simp [Cursor.step])
    hreturn.2 hmore
  rw [hcut, htake, Cursor.past_append, Cursor.past_append, Cursor.past_cons, Cursor.past_cons,
    Cursor.past_nil, (h.past_line hno hreturn.1).step_return]
  exact hbehind.ne

theorem text_eq {a b : Token} (hl : a.lexeme = b.lexeme)
    (hr : b.lexeme.isFault = false → a.raw = b.raw) : a.text = b.text := by
  unfold text
  rw [hl]
  cases hb : b.lexeme with
  | text value => rfl
  | fault why => rfl
  | _ => exact hr (by rw [hb]; rfl)

/-- The token that a lexeme makes, with what is read behind it. -/
def fromLexeme (g : Grammar) (cursor : Cursor) (newline : Bool) (c : Char) (cs : List Char)
    (found : Lexeme × Nat) : List Token :=
  let token := lexed cursor found.1 newline c (cs.take found.2)
  if found.1.isFault then [token]
  else token :: ofTextFrom g (cursor.past (c :: cs.take found.2)) (cs.drop found.2)

theorem fromLexeme_eq_cons (g : Grammar) (cursor : Cursor) (newline : Bool) (c : Char)
    (cs : List Char) (found : Lexeme × Nat) :
    ∃ others, fromLexeme g cursor newline c cs found =
      lexed cursor found.1 newline c (cs.take found.2) :: others := by
  unfold fromLexeme
  dsimp only
  split <;> exact ⟨_, rfl⟩

/-- One lexeme that is read in both texts, and what is read behind it. -/
theorem agree_fromLexeme (h : a.Level b) (hc : c ≠ '\n') (hcs : '\r' ∉ c :: cs) (newline : Bool)
    (ih : ∀ {a b : Cursor}, a.Level b →
      AgreeToBreak (ofTextFrom g a (crlf (cs.drop (Lexeme.read g c cs).2)))
        (ofTextFrom g b (cs.drop (Lexeme.read g c cs).2))) :
    AgreeToBreak (fromLexeme g a newline c (crlf cs) (Lexeme.read g c (crlf cs)))
      (fromLexeme g b newline c cs (Lexeme.read g c cs)) := by
  rw [List.mem_cons, not_or] at hcs
  have hlevel := h.step hc (Ne.symm hcs.1)
  have hle := Lexeme.read_le g c cs
  have hwhole := @Lexeme.newline_not_mem_read g c cs
  have hquote : Broken (cs.take (Lexeme.read g c cs).2) → isQuote c = true := by
    intro hb
    cases hq : (c == '\'' || c == '"') with
    | true => rw [isQuote, hq, Bool.true_or]
    | false => exact absurd hb (not_broken (Lexeme.read_crlf_of_not_quote hq).2)
  rw [Lexeme.read_crlf]
  generalize Lexeme.read g c cs = found at *
  have hbreaks : (lexed b found.1 newline c (cs.take found.2)).BreaksLine ↔
      isQuote c = true ∧ Broken (cs.take found.2) := by
    rw [BreaksLine, lexed, String.toList_ofList, ← List.singleton_append,
      broken_append fun hm => hc (List.mem_singleton.1 hm).symm]
    rfl
  by_cases hb : Broken (cs.take found.2)
  · obtain ⟨others, hothers⟩ := fromLexeme_eq_cons g b newline c cs found
    rw [if_pos hb, hothers]
    exact .cut rfl (hbreaks.2 ⟨hquote hb, hb⟩) (stop_cutAt hlevel hcs.2 hb)
  · have hsplit : found.1.isFault = false → (crlf cs).take found.2 = cs.take found.2 ∧
        (crlf cs).drop found.2 = crlf (cs.drop found.2) :=
      fun hf => take_drop_crlf_of_not_mem hle (hwhole hf hb)
    have hraw : found.1.isFault = false →
        String.ofList (c :: (crlf cs).take found.2) = String.ofList (c :: cs.take found.2) :=
      fun hf => by rw [(hsplit hf).1]
    have hsame : (lexed a found.1 newline c ((crlf cs).take found.2)).SameButOffsets
        (lexed b found.1 newline c (cs.take found.2)) :=
      ⟨rfl, text_eq rfl hraw, hraw, rfl, h.position, stop_crlf hlevel hcs.2 hle hb⟩
    have hno := fun hbroken => hb (hbreaks.1 hbroken).2
    rw [if_neg hb]
    unfold fromLexeme
    cases hf : found.1.isFault with
    | true => exact .cons hsame hno .nil
    | false =>
      have hbehind := hlevel.past_line (hwhole hf hb) fun hr => hcs.2 (List.mem_of_mem_take hr)
      refine .cons hsame hno ?_
      rw [(hsplit hf).1, (hsplit hf).2]
      exact ih hbehind

/-- Of a text without carriage returns. The induction is on the number of characters that are
    left; the cursors are level before each lexeme. -/
theorem agree_ofTextFrom (g : Grammar) (h : a.Level b) (hcs : '\r' ∉ cs) :
    AgreeToBreak (ofTextFrom g a (crlf cs)) (ofTextFrom g b cs) := by
  induction hn : cs.length using Nat.strongRecOn generalizing a b cs with
  | ind k ih =>
    obtain ⟨htake, hdrop⟩ := Trivia.take_ofText_crlf cs
    have hopen : (Trivia.ofText (crlf cs)).openComment = (Trivia.ofText cs).openComment := by
      rw [Trivia.ofText_crlf]
    have hnewline : (Trivia.ofText (crlf cs)).newline = (Trivia.ofText cs).newline := by
      rw [Trivia.ofText_crlf]
    cases hd : cs.drop (Trivia.ofText cs).length with
    | nil =>
      rw [hd] at hdrop
      rw [ofTextFrom_of_drop_eq_nil hdrop, ofTextFrom_of_drop_eq_nil hd]
      exact .nil
    | cons c rest =>
      have hc : c ≠ '\n' := by
        rintro rfl
        cases Trivia.isSpace_of_drop hd
      have hgap : '\r' ∉ cs.take (Trivia.ofText cs).length := fun hr =>
        hcs (List.mem_of_mem_take hr)
      have hrest : '\r' ∉ c :: rest := hd ▸ fun hr => hcs (List.mem_of_mem_drop hr)
      have hlevel := h.past_crlf hgap
      rw [hd, crlf_cons hc] at hdrop
      rw [ofTextFrom_of_drop hdrop, ofTextFrom_of_drop hd, htake, hopen, hnewline]
      cases ho : (Trivia.ofText cs).openComment with
      | true =>
        obtain ⟨ds, hds⟩ := Trivia.drop_of_openComment ho
        obtain ⟨rfl, -⟩ := List.cons.inj (hd.symm.trans hds)
        have hstop := (hlevel.past_crlf hrest).position
        rw [crlf_cons hc] at hstop
        refine .cons ⟨rfl, rfl, fun hf => Bool.noConfusion hf, rfl, hlevel.position, hstop⟩ ?_ .nil
        rintro ⟨hq, -⟩
        rw [lexed, String.toList_ofList] at hq
        cases hq
      | false =>
        have hbehind : ∀ m, '\r' ∉ rest.drop m := fun _ hr =>
          hrest (List.mem_cons_of_mem _ (List.mem_of_mem_drop hr))
        exact agree_fromLexeme hlevel hc hrest _ fun hlevel =>
          ih _ (hn ▸ length_drop_lt hd _) hlevel (hbehind _) rfl

end Token

theorem Token.faultless_of_same {as bs : List Token} (h : List.Forall₂ SameButOffsets as bs) :
    Faultless as ↔ Faultless bs := by
  induction h with
  | nil => exact Iff.rfl
  | cons hs _ ih =>
    rw [Faultless, List.forall_mem_cons, hs.lexeme, Faultless, List.forall_mem_cons]
    exact and_congr_right fun _ => ih

/-! ## Programs -/

/-- The place without its offset. -/
def Source.Place.unplaced (place : Place) : Place :=
  ⟨0, place.position⟩

/-- The program without the offsets of its parts. -/
def Program.unplaced (p : Program) : Program :=
  p.relocate Place.unplaced

section
variable {g : Grammar} {origin : Option Origin} {url : Option String} {text : List Char}

/-- Spans between the same positions are the same in a document, but for the offsets. -/
theorem Source.Span.unplaced_within {a b : Span} (hstart : a.start.position = b.start.position)
    (hstop : a.stop.position = b.stop.position) (origin : Option Origin) :
    (a.within origin).relocate Place.unplaced = (b.within origin).relocate Place.unplaced := by
  obtain ⟨⟨m, p⟩, ⟨n, q⟩⟩ := a
  obtain ⟨⟨m', p'⟩, ⟨n', q'⟩⟩ := b
  obtain rfl : p = p' := hstart
  obtain rfl : q = q' := hstop
  cases origin <;> rfl

theorem Source.Place.position_endOf_crlf (h : '\r' ∉ text) :
    (Place.endOf (crlf text)).position = (Place.endOf text).position := by
  have hlevel : Cursor.origin.Level Cursor.origin := ⟨rfl, by decide, by decide⟩
  have hend := (hlevel.past_crlf h).position
  rw [Place.endOf, Place.endOf, positionAt, positionAt, List.take_length, List.take_length]
  exact hend

/-- What is read of an input depends on the input without its offsets. -/
theorem Program.unplaced_ofText (g : Grammar) (origin : Option Origin) (url : Option String)
    (text : List Char) :
    (Program.ofText g origin url text).toOption.map unplaced =
      (program ((Input.ofText g origin text).relocate Place.unplaced)).toOption.map fun answer =>
        ⟨answer.1, ((Span.mk Place.origin (Place.endOf text)).within origin).relocate
          Place.unplaced, url⟩ := by
  rw [natural_program]
  unfold ofText
  dsimp only
  rw [← Input.ofText]
  cases program (Input.ofText g origin text) with
  | error failure => rfl
  | ok answer =>
    obtain ⟨body, rest⟩ := answer
    exact congrArg (fun body => some (⟨body, _, url⟩ : Program)) (relabelStatements_eq _ body)

/-- Texts with the same tokens are the same input, but for the offsets. -/
theorem Input.unplaced_crlf (h : '\r' ∉ text)
    (hs : List.Forall₂ Token.SameButOffsets (Token.ofText g (crlf text)) (Token.ofText g text))
    (hf : Faultless (Token.ofText g text)) (origin : Option Origin) :
    (Input.ofText g origin (crlf text)).relocate Place.unplaced =
      (Input.ofText g origin text).relocate Place.unplaced := by
  have htokens : ∀ {as bs : List Token}, List.Forall₂ Token.SameButOffsets as bs → Faultless bs →
      (as.map (·.mapSpan (·.within origin))).map (·.relocate Place.unplaced) =
        (bs.map (·.mapSpan (·.within origin))).map (·.relocate Place.unplaced) := by
    intro as bs hs hf
    induction hs with
    | nil => rfl
    | @cons a b as bs hab _ ih =>
      obtain ⟨hb, hbs⟩ := List.forall_mem_cons.1 hf
      have hspan := Span.unplaced_within hab.start hab.stop origin
      obtain ⟨lexeme, raw, newline, span⟩ := a
      obtain ⟨lexeme', raw', newline', span'⟩ := b
      obtain rfl : lexeme = lexeme' := hab.lexeme
      obtain rfl : raw = raw' := hab.raw hb
      obtain rfl : newline = newline' := hab.newlineBefore
      rw [List.map_cons, List.map_cons, List.map_cons, List.map_cons, ih hbs]
      exact congrArg (fun span => (⟨lexeme, raw, newline, span⟩ : Token) :: _) hspan
  have hend := Place.position_endOf_crlf h
  have hstop := Span.unplaced_within (a := Span.at (Place.endOf (crlf text)))
    (b := Span.at (Place.endOf text)) hend hend origin
  have hrest := htokens hs hf
  rw [Input.relocate, Input.relocate, Input.ofText, Input.ofText, Input.ofTokens, Input.ofTokens,
    Token.ofTextWithin, Token.ofTextWithin]
  dsimp only
  rw [hstop, hrest]

/-- A text with a fault among its tokens is no program. -/
theorem Program.toOption_of_fault (h : ¬ Faultless (Token.ofText g text)) :
    (Program.ofText g origin url text).toOption = none := by
  cases hp : Program.ofText g origin url text with
  | error e => rfl
  | ok p => exact absurd (Program.faultless_of_ofText hp) h

/-- Texts with the same tokens are the same program, but for the offsets, or none. -/
theorem Program.unplaced_crlf (h : '\r' ∉ text)
    (hs : List.Forall₂ Token.SameButOffsets (Token.ofText g (crlf text)) (Token.ofText g text))
    (origin : Option Origin) (url : Option String) :
    (Program.ofText g origin url (crlf text)).toOption.map unplaced =
      (Program.ofText g origin url text).toOption.map unplaced := by
  by_cases hf : Faultless (Token.ofText g text)
  · have hwhole := Span.unplaced_within (a := Span.mk Place.origin (Place.endOf (crlf text)))
      (b := Span.mk Place.origin (Place.endOf text)) rfl (Place.position_endOf_crlf h) origin
    rw [unplaced_ofText, unplaced_ofText, Input.unplaced_crlf h hs hf, hwhole]
  · have hf' : ¬ Faultless (Token.ofText g (crlf text)) := fun hf' =>
      hf ((Token.faultless_of_same hs).1 hf')
    rw [Program.toOption_of_fault hf, Program.toOption_of_fault hf']

end

/-- Of a text without carriage returns. Its tokens stay the same, but for their offsets, if and
    only if no text literal goes over a line feed. Then so does its program, or there is none in
    both texts; and else there is none where each line feed has a carriage return before it. -/
theorem Program.ofText_lineEnds (g : Grammar) (text : List Char) (h : '\r' ∉ text) :
    (List.Forall₂ Token.SameButOffsets (Token.ofText g (crlf text)) (Token.ofText g text) ↔
      ∀ token ∈ Token.ofText g text, ¬ token.BreaksLine) ∧
    ∀ (origin : Option Origin) (url : Option String),
      (Program.ofText g origin url (crlf text)).toOption.map unplaced =
        if ∀ token ∈ Token.ofText g text, ¬ token.BreaksLine then
          (Program.ofText g origin url text).toOption.map unplaced
        else none := by
  have hlevel : Cursor.origin.Level Cursor.origin := ⟨rfl, by decide, by decide⟩
  have hagree : Token.AgreeToBreak (Token.ofText g (crlf text)) (Token.ofText g text) :=
    Token.agree_ofTextFrom g hlevel h
  refine ⟨hagree.same_iff, fun origin url => ?_⟩
  by_cases hall : ∀ token ∈ Token.ofText g text, ¬ token.BreaksLine
  · rw [if_pos hall, unplaced_crlf h (hagree.same_iff.2 hall)]
  · obtain ⟨token, hm, hf⟩ := hagree.fault (by simpa using hall)
    have hfault : ¬ Faultless (Token.ofText g (crlf text)) := fun hno => by
      rw [hno token hm] at hf
      cases hf
    rw [if_neg hall, toOption_of_fault hfault]
    rfl

/-- A comment, a sum over two lines and a text literal with an escape. -/
theorem ofText_lineEnds_sum :
    let text := "// sum\na +\n'b\\'\\n'".toList
    '\r' ∉ text ∧ (∀ token ∈ Token.ofText .template text, ¬ token.BreaksLine) ∧
      List.Forall₂ Token.SameButOffsets (Token.ofText .template (crlf text))
        (Token.ofText .template text) ∧
      (Program.ofText .template none none (crlf text)).toOption.map Program.unplaced =
        (Program.ofText .template none none text).toOption.map Program.unplaced ∧
      (Program.ofText .template none none text).toBool = true := by
  intro text
  have h : '\r' ∉ text := by decide +kernel
  have hall : ∀ token ∈ Token.ofText .template text, ¬ token.BreaksLine := by decide +kernel
  obtain ⟨hsame, hprogram⟩ := Program.ofText_lineEnds .template text h
  exact ⟨h, hall, hsame.2 hall, (hprogram none none).trans (if_pos hall), by decide +kernel⟩

/-- A backslash at the end of a line: a text literal goes on behind the line feed, and has no end
    where a carriage return comes before it. -/
theorem ofText_lineEnds_escaped :
    let text := "'a\\\nb'".toList
    '\r' ∉ text ∧
      ¬ List.Forall₂ Token.SameButOffsets (Token.ofText .template (crlf text))
        (Token.ofText .template text) ∧
      (Program.ofText .template none none text).toBool = true ∧
      (Program.ofText .template none none (crlf text)).toBool = false := by
  intro text
  have faults : Faultless (Token.ofText .template text) ∧
      ¬ Faultless (Token.ofText .template (crlf text)) := by decide +kernel
  refine ⟨by decide +kernel, fun hs => ?_, by decide +kernel⟩
  exact faults.2 ((Token.faultless_of_same hs).2 faults.1)

end TemplateExpr
