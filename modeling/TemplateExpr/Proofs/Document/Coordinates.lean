/-
  The coordinates of what is read from a region are coordinates of the document. Three walks over
  the characters have to agree: that over the document, which finds the region; that over the
  code of the region, which starts again at the first line; and that which says where an offset
  of the document is.

  * `Shifted.past`: moving a place of the code is walking on in the document.
  * `movePlace_eq_shift`: in a document whose positions are numbers of 64 bits, no move overflows.
  * `Dialect.spans_of_region`: the spans of a program and the places of an error are exact.
-/
import TemplateExpr.Document.Scan
import TemplateExpr.Proofs.Binding.Labels
import TemplateExpr.Proofs.Document.Walk
import TemplateExpr.Proofs.Grammar.Sound
import TemplateExpr.Proofs.Places.Nesting
import TemplateExpr.Proofs.Token.Places

namespace TemplateExpr
open Source Production

/-! ## Walking in a piece and in the document around it -/

/-- A place of the piece as a place of the document, in numbers of any size. -/
def Source.Origin.shift (origin : Origin) (place : Place) : Place :=
  ⟨place.offset + origin.offset,
    ⟨place.position.line + origin.line,
      if place.position.line = 1 then place.position.column + origin.column
      else place.position.column⟩⟩

/-- The cursor `inner` of a piece is where the cursor `outer` of the document is. -/
structure Source.Shifted (origin : Origin) (inner outer : Cursor) : Prop where
  place : outer.place = origin.shift inner.place
  line : 1 ≤ inner.place.position.line
  previous : inner.previous = '\r' ↔ outer.previous = '\r'

namespace Source.Shifted

variable {origin : Origin} {inner outer : Cursor}

/-- A line end moves both cursors to the start of a line, and any other character moves them
    to the next column. -/
theorem step (h : Shifted origin inner outer) (c : Char) :
    Shifted origin (inner.step c) (outer.step c) := by
  obtain ⟨⟨offset, line, column⟩, previous⟩ := inner
  obtain ⟨place, previous'⟩ := outer
  obtain ⟨rfl, hl, hp⟩ := h
  dsimp only at hl hp
  refine ⟨?_, ?_, Iff.rfl⟩
  · simp only [Cursor.step, Origin.shift, Place.mk.injEq]
    refine ⟨by omega, ?_⟩
    unfold Position.after
    simp only [hp]
    split
    · rfl
    · split
      · rw [Position.mk.injEq, if_neg (by dsimp only; omega)]
        exact ⟨by dsimp only; omega, rfl⟩
      · dsimp only
        rw [Position.mk.injEq]
        refine ⟨rfl, ?_⟩
        split <;> omega
  · simp only [Cursor.step]
    unfold Position.after
    split
    · exact hl
    · split
      · exact Nat.le_add_left 1 line
      · exact hl

theorem past (h : Shifted origin inner outer) (cs : List Char) :
    Shifted origin (inner.past cs) (outer.past cs) := by
  induction cs generalizing inner outer with
  | nil => exact h
  | cons c cs ih => exact ih (h.step c)

end Source.Shifted

theorem one_le_line (cs : List Char) : 1 ≤ (Cursor.origin.past cs).place.position.line := by
  have h : Shifted ⟨0, 0, 0⟩ Cursor.origin Cursor.origin := ⟨rfl, Nat.le_refl 1, Iff.rfl⟩
  exact (h.past cs).line

theorem shift_origin {place : Place} (h : 1 ≤ place.position.line) :
    (Origin.ofPlace place).shift Place.origin = place := by
  obtain ⟨offset, line, column⟩ := place
  simp only [Origin.shift, Origin.ofPlace, Place.origin, Position.origin, if_true, Place.mk.injEq,
    Position.mk.injEq] at h ⊢
  omega

/-- Behind the opening brace, the start of the code is the start of a piece. -/
theorem shifted_brace (before : List Char) :
    Shifted (Origin.ofPlace (Cursor.origin.past (before ++ ['{'])).place) Cursor.origin
      (Cursor.origin.past (before ++ ['{'])) := by
  refine ⟨(shift_origin (one_le_line _)).symm, Nat.le_refl 1, ?_⟩
  rw [Cursor.past_append]
  simp [Cursor.origin, Cursor.step]

/-! ## Moves that do not overflow -/

/-- The offset, the line and the column are numbers of 64 bits. -/
structure Source.Place.InWords (place : Place) : Prop where
  offset_lt : place.offset < UInt64.size
  line_lt : place.position.line < UInt64.size
  column_lt : place.position.column < UInt64.size

theorem movePlace_eq_shift {origin : Origin} {place : Place} (h : (origin.shift place).InWords) :
    origin.movePlace place = origin.shift place := by
  obtain ⟨hoffset, hline, hcolumn⟩ := h
  rw [Origin.movePlace, Origin.movePosition, wordSum_of_lt hoffset, wordSum_of_lt hline]
  unfold Origin.shift at hcolumn ⊢
  dsimp only at hcolumn
  split at hcolumn
  · next hl => rw [if_pos hl, if_pos hl, wordSum_of_lt hcolumn]
  · next hl => rw [if_neg hl, if_neg hl]

/-- One more character is at most one more line or column. -/
theorem position_past_le (cursor : Cursor) (cs : List Char) :
    (cursor.past cs).place.position.line ≤ cursor.place.position.line + cs.length ∧
      (cursor.past cs).place.position.column ≤ cursor.place.position.column + cs.length := by
  induction cs generalizing cursor with
  | nil => exact ⟨Nat.le_refl _, Nat.le_refl _⟩
  | cons c cs ih =>
    have hstep : (cursor.step c).place.position.line ≤ cursor.place.position.line + 1 ∧
        (cursor.step c).place.position.column ≤ cursor.place.position.column + 1 := by
      unfold Cursor.step Position.after
      dsimp only
      split
      · exact ⟨Nat.le_succ _, Nat.le_succ _⟩
      · split
        · exact ⟨Nat.le_refl _, Nat.zero_le _⟩
        · exact ⟨Nat.le_succ _, Nat.le_refl _⟩
    have hrest := ih (cursor.step c)
    rw [Cursor.past_cons, List.length_cons]
    omega

theorem inWords_past {cs : List Char} (h : Bounded cs) :
    (Cursor.origin.past cs).place.InWords := by
  obtain ⟨hline, hcolumn⟩ := position_past_le Cursor.origin cs
  have hoffset := Cursor.offset_past Cursor.origin cs
  change _ ≤ 1 + cs.length at hline
  change _ ≤ 0 + cs.length at hcolumn
  change _ = 0 + cs.length at hoffset
  unfold Bounded at h
  exact ⟨by omega, by omega, by omega⟩

/-! ## Exact places -/

/-- The place is in the document between the two offsets, and its position is where its offset
    is. -/
structure Source.Place.ExactIn (document : List Char) (first last : Nat) (place : Place) :
    Prop where
  first_le : first ≤ place.offset
  le_last : place.offset ≤ last
  position_eq : place.position = positionAt document place.offset

section
variable {region : Region} {document before after : List Char} {place : Place}

/-- A place of the code, moved into the document, is exact there. -/
theorem exactIn_movePlace (h : region.StandsIn document before after) (hb : Bounded document)
    (hp : Cursor.origin.Reaches region.code place) :
    (region.origin.movePlace place).ExactIn document (region.start + 1) (region.stop - 1) := by
  obtain ⟨hd, hstart, hstop, ho⟩ := h
  obtain ⟨n, hn, rfl⟩ := hp
  have hs := ((shifted_brace before).past (region.code.take n)).place
  rw [← ho, ← Cursor.past_append] at hs
  have htake : document.take (before.length + 1 + n) =
      before ++ ['{'] ++ region.code.take n := by
    rw [hd, Nat.add_assoc, List.append_assoc, List.take_length_add_append, Nat.add_comm 1 n,
      List.cons_append, List.take_succ_cons, List.take_append_of_le_length hn]
    simp
  have hwords : (Cursor.origin.past (before ++ ['{'] ++ region.code.take n)).place.InWords := by
    rw [← htake]
    exact inWords_past (Nat.lt_of_le_of_lt (Nat.succ_le_succ (List.length_take_le' _ _)) hb)
  rw [movePlace_eq_shift (hs ▸ hwords)]
  have hoff : (region.origin.shift (Cursor.origin.past (region.code.take n)).place).offset =
      before.length + 1 + n := by
    rw [← hs, Cursor.offset_past]
    simp only [Cursor.origin, Place.origin, List.length_append, List.length_take,
      List.length_singleton]
    omega
  refine ⟨by omega, by omega, ?_⟩
  rw [hoff, positionAt, htake, ← hs]

end

/-! ## Programs and errors of a region -/

theorem reaches_endOf (text : List Char) :
    Cursor.origin.Reaches text (Place.endOf text) := by
  refine ⟨text.length, Nat.le_refl _, ?_⟩
  have ho : (Cursor.origin.past (text.take text.length)).place.offset = text.length := by
    rw [Cursor.offset_past, List.take_length]
    exact Nat.zero_add _
  rw [Place.endOf, positionAt]
  generalize Cursor.place _ = place at ho ⊢
  obtain ⟨offset, position⟩ := place
  dsimp only at ho ⊢
  rw [ho]

section
variable {region : Region} {document before after : List Char}

/-- Every place that the parser is given for the code of a region is exact. -/
theorem placed_of_standsIn (h : region.StandsIn document before after) (hb : Bounded document)
    (g : Grammar) :
    Placed (Place.ExactIn document (region.start + 1) (region.stop - 1))
      (Input.ofTokens (Token.ofTextWithin g (some region.origin) region.code)
        ((Span.at (Place.endOf region.code)).within (some region.origin))) := by
  have hstop := exactIn_movePlace h hb (reaches_endOf region.code)
  refine ⟨⟨hstop, hstop⟩, ⟨hstop, hstop⟩, fun token ht => ?_⟩
  obtain ⟨original, ho, rfl⟩ := List.mem_map.1 ht
  obtain ⟨hs, he⟩ := Token.reaches_of_mem ho
  exact ⟨exactIn_movePlace h hb hs, exactIn_movePlace h hb he⟩

/-- The span runs forward, and both its ends are exact. -/
structure Source.Span.ExactIn (document : List Char) (first last : Nat) (span : Span) : Prop where
  start : span.start.ExactIn document first last
  stop : span.stop.ExactIn document first last
  forward : span.start.offset ≤ span.stop.offset

theorem Program.exactIn_of_ofText (h : region.StandsIn document before after)
    (hb : Bounded document) {g : Grammar} {url : Option String} {program : Program}
    (hp : Program.ofText g (some region.origin) url region.code = .ok program) :
    ∀ span ∈ program.spans, span.ExactIn document (region.start + 1) (region.stop - 1) := by
  unfold Program.ofText at hp
  dsimp only at hp
  split at hp
  · next body rest hbody =>
    cases hp
    have hfit := h.fits hb
    have hstart := exactIn_movePlace h hb (Cursor.reaches_start Cursor.origin region.code)
    have hstop := exactIn_movePlace h hb (reaches_endOf region.code)
    intro span hs
    obtain rfl | hs := List.mem_cons.1 hs
    · refine ⟨hstart, hstop, ?_⟩
      rw [Span.offset_start_within, Span.offset_stop_within]
      change offsetWithin _ 0 ≤ offsetWithin _ region.code.length
      exact offsetWithin_le hfit (Nat.zero_le _) (Nat.le_refl _)
    · obtain ⟨hs', he⟩ := program_places (placed_of_standsIn h hb g) hbody span hs
      have ha := Token.ascending_ofTextWithin g hfit
      exact ⟨hs', he, Nat.le_of_lt ((readsAll_of_program hbody).forward ha span hs)⟩
  · cases hp

theorem SyntaxError.exactIn_of_ofText (h : region.StandsIn document before after)
    (hb : Bounded document) {g : Grammar} {url : Option String} {e : SyntaxError}
    (hp : Program.ofText g (some region.origin) url region.code = .error e) :
    e.place.ExactIn document (region.start + 1) (region.stop - 1) := by
  unfold Program.ofText at hp
  dsimp only at hp
  split at hp
  · cases hp
  · next failure hf =>
    cases hp
    cases failure with
    | exhausted => exact exactIn_movePlace h hb (reaches_endOf region.code)
    | fault why place => exact program_failure_place (placed_of_standsIn h hb g) hf

end

/-- What is read from a region of a document has the coordinates of the document: every span of
    the program, or the place of the error, is between the braces of the region, and its lines
    and columns are those of its offsets. No position of the document overflows. -/
theorem Dialect.exactIn_of_region (dialect : Dialect) (around : Surroundings)
    {document : List Char} {region : Region} (hb : Bounded document)
    (h : region.FoundIn document) :
    (∀ program, dialect.analyse (around.at region) (String.ofList region.code) = .ok program →
      ∀ span ∈ program.spans,
        span.ExactIn document (region.start + 1) (region.stop - 1)) ∧
    (∀ e, dialect.analyse (around.at region) (String.ofList region.code) = .error e →
      e.place.ExactIn document (region.start + 1) (region.stop - 1)) := by
  obtain ⟨before, after, hr⟩ := h.split
  unfold Dialect.analyse Dialect.parse
  rw [String.toList_ofList]
  constructor
  · intro program hp
    cases hq : Program.ofText dialect.grammar (around.at region).origin (around.at region).url
        region.code with
    | error e => rw [hq] at hp; cases hp
    | ok parsed =>
      rw [hq] at hp
      cases hp
      rw [Program.spans_classify]
      exact Program.exactIn_of_ofText hr hb hq
  · intro e hp
    cases hq : Program.ofText dialect.grammar (around.at region).origin (around.at region).url
        region.code with
    | ok parsed => rw [hq] at hp; cases hp
    | error e' =>
      rw [hq] at hp
      cases hp
      exact SyntaxError.exactIn_of_ofText hr hb hq

/-- A program on two lines behind an empty first line, and an error in a second region. -/
theorem exactIn_of_region_lines :
    let document := "\r\n\x7ba\r\n+ b\x7d \x7ba b\x7d".toList
    let first : Region := ⟨"a\r\n+ b".toList, ⟨3, 1, 1⟩, 2, 10⟩
    let second : Region := ⟨"a b".toList, ⟨12, 2, 6⟩, 11, 16⟩
    (∃ program, ({} : Dialect).analyse (({} : Surroundings).at first) "a\r\n+ b" = .ok program ∧
      ∀ span ∈ program.spans, span.ExactIn document 3 9) ∧
    (∃ e, ({} : Dialect).analyse (({} : Surroundings).at second) "a b" = .error e ∧
      e.place.ExactIn document 12 15) := by
  intro document first second
  have hb : Bounded document := by decide
  have hfirst : first.FoundIn document := ⟨0, by decide⟩
  have hsecond : second.FoundIn document := ⟨1, by decide⟩
  constructor
  · obtain ⟨program, h⟩ : ∃ program,
        ({} : Dialect).analyse (({} : Surroundings).at first) "a\r\n+ b" = .ok program :=
      exists_eq_ok_of_isOk (by decide +kernel)
    exact ⟨program, h, (Dialect.exactIn_of_region {} {} hb hfirst).1 program h⟩
  · cases h : ({} : Dialect).analyse (({} : Surroundings).at second) "a b" with
    | ok program =>
      have hok : ¬ (({} : Dialect).analyse (({} : Surroundings).at second) "a b").isOk := by
        decide +kernel
      rw [h] at hok
      exact absurd rfl hok
    | error e => exact ⟨e, rfl, (Dialect.exactIn_of_region {} {} hb hsecond).2 e h⟩

end TemplateExpr
