/-
  Tokens that stand one behind the other, and what is read from them.

  The invariant of a reading is `Settled`: what was read lies behind a lower bound and before the
  end of the token read last, and the tokens that are left stand behind that. It is kept when a
  token is read, when what follows is read, and when a span goes from the next token to the one
  that was read last.
-/
import TemplateExpr.Proofs.Grammar.Reads
import TemplateExpr.Proofs.Tree.Outlines

namespace TemplateExpr
open Source (Place Span)
open Production

/-- No token is empty, and each stands behind the one before it, the first one behind `low`. -/
def Ascending : Nat → List Token → Prop
  | _, [] => True
  | low, token :: rest =>
    low ≤ token.span.start.offset ∧ token.span.start.offset < token.span.stop.offset ∧
      Ascending token.span.stop.offset rest

theorem Ascending.weaken {low low' : Nat} {tokens : List Token} (h : Ascending low tokens)
    (hl : low' ≤ low) : Ascending low' tokens := by
  cases tokens with
  | nil => trivial
  | cons token rest => exact ⟨Nat.le_trans hl h.1, h.2⟩

theorem Ascending.suffix {low : Nat} {tokens rest : List Token} (h : Ascending low tokens)
    (hs : rest <:+ tokens) : Ascending low rest := by
  induction tokens generalizing low with
  | nil => rw [List.suffix_nil.1 hs]; trivial
  | cons token tokens ih =>
    obtain rfl | hs := List.suffix_cons_iff.1 hs
    · exact h
    · have hl : low ≤ token.span.stop.offset := by have := h.1; have := h.2.1; omega
      exact (ih h.2.2 hs).weaken hl

theorem Ascending.forward {low : Nat} {tokens : List Token} (h : Ascending low tokens) :
    ∀ token ∈ tokens, low ≤ token.span.start.offset ∧
      token.span.start.offset < token.span.stop.offset := by
  induction tokens generalizing low with
  | nil => exact List.forall_mem_nil _
  | cons first tokens ih =>
    obtain ⟨hlow, hlt, hrest⟩ := h
    refine List.forall_mem_cons.2 ⟨⟨hlow, hlt⟩, fun token ht => ?_⟩
    obtain ⟨hbehind, hlt'⟩ := ih hrest token ht
    exact ⟨by omega, hlt'⟩

/-- Tokens that stand one behind the other have no character in common. -/
theorem Ascending.apart {low : Nat} {tokens : List Token} (h : Ascending low tokens) :
    tokens.Pairwise fun a b => a.span.stop.offset ≤ b.span.start.offset := by
  induction tokens generalizing low with
  | nil => exact .nil
  | cons first tokens ih =>
    exact .cons (fun token ht => (h.2.2.forward token ht).1) (ih h.2.2)

theorem Ascending.here {low : Nat} {i : Input} (h : Ascending low i.rest) :
    Ascending i.here.start.offset i.rest := by
  obtain ⟨last, rest, stop⟩ := i
  cases rest with
  | nil => trivial
  | cons token rest => exact ⟨Nat.le_refl _, h.2⟩

/-- The tokens of a text that fits into its document stand one behind the other there. -/
theorem Ascending.within {origin : Option Source.Origin} {text : List Char}
    (hfit : Source.FitsWithin origin text) {low : Nat} {tokens : List Token}
    (h : Ascending low tokens) (hstop : ∀ token ∈ tokens, token.span.stop.offset ≤ text.length) :
    Ascending (Source.offsetWithin origin low) (tokens.map (·.mapSpan (·.within origin))) := by
  induction tokens generalizing low with
  | nil => trivial
  | cons token tokens ih =>
    obtain ⟨hlow, hlt, hr⟩ := h
    obtain ⟨hfirst, hrest⟩ := List.forall_mem_cons.1 hstop
    have hbehind := ih hr hrest
    rw [← Span.offset_stop_within] at hbehind
    refine ⟨?_, ?_, hbehind⟩
    · rw [Token.span_mapSpan, Span.offset_start_within]
      exact Source.offsetWithin_le hfit hlow (Nat.le_trans (Nat.le_of_lt hlt) hfirst)
    · rw [Token.span_mapSpan, Span.offset_start_within, Span.offset_stop_within]
      exact Source.offsetWithin_lt hfit hlt hfirst

/-! ## The invariant -/

/-- The spans were read behind `low` and before the end of the token read last, and the tokens
    that are left stand behind that. -/
structure Settled (low : Nat) (spans : List Span) (i : Input) : Prop where
  low_le : low ≤ i.last.stop.offset
  between : ∀ span ∈ spans, span.Between low i.last.stop.offset
  ascending : Ascending i.last.stop.offset i.rest

namespace Settled

variable {low : Nat} {spans more : List Span} {i j : Input} {lexeme : Lexeme}

/-- A token is read. -/
theorem token (h : Ascending low i.rest) (hl : i.lexeme? = some lexeme) :
    Settled low [i.here] i.skip := by
  obtain ⟨last, rest, stop⟩ := i
  cases rest with
  | nil => cases hl
  | cons token rest =>
    obtain ⟨hlow, hlt, hr⟩ := h
    refine ⟨Nat.le_trans hlow (Nat.le_of_lt hlt), ?_, hr⟩
    intro span hs
    rw [List.mem_singleton.1 hs]
    exact ⟨hlow, hlt, Nat.le_refl _⟩

/-- Nothing has been read behind the token read last. -/
theorem nothing (h : Ascending i.last.stop.offset i.rest) :
    Settled i.last.stop.offset [] i :=
  ⟨Nat.le_refl _, fun _ hs => absurd hs List.not_mem_nil, h⟩

/-- What follows is read behind what was read. -/
theorem next (h : Settled low spans i)
    (h' : Ascending i.last.stop.offset i.rest → Settled i.last.stop.offset more j) :
    Settled low (spans ++ more) j := by
  obtain ⟨hlow, hb, ha⟩ := h' h.ascending
  refine ⟨Nat.le_trans h.low_le hlow, ?_, ha⟩
  intro span hs
  obtain hs | hs := List.mem_append.1 hs
  · have := h.between span hs
    exact ⟨this.low_le, this.start_lt, Nat.le_trans this.le_high hlow⟩
  · have := hb span hs
    exact ⟨Nat.le_trans h.low_le this.low_le, this.start_lt, this.le_high⟩

/-- Some of the spans are forgotten. -/
theorem mono (h : Settled low spans i) (hs : more ⊆ spans) : Settled low more i :=
  ⟨h.low_le, fun span hm => h.between span (hs hm), h.ascending⟩

theorem cons (h : Settled low spans i) {span : Span} (hs : span.Between low i.last.stop.offset) :
    Settled low (span :: spans) i := by
  refine ⟨h.low_le, ?_, h.ascending⟩
  intro other ho
  obtain rfl | ho := List.mem_cons.1 ho
  · exact hs
  · exact h.between other ho

/-- What was read behind the start of the next token was read behind every bound below it,
    and so was the span from there to the token read last. -/
theorem spanFromHere {k : Input} (h : Settled i.here.start.offset spans k)
    (ha : Ascending low i.rest) (hl : i.lexeme? = some lexeme) {inner : Span}
    (hi : inner ∈ spans) : Settled low (k.spanFrom i.here :: spans) k := by
  have hlow : low ≤ i.here.start.offset := ((token ha hl).between i.here List.mem_cons_self).low_le
  have hb := h.between inner hi
  have hw : Settled low spans k := by
    refine ⟨Nat.le_trans hlow h.low_le, fun span hs => ?_, h.ascending⟩
    have hs := h.between span hs
    exact ⟨Nat.le_trans hlow hs.low_le, hs.start_lt, hs.le_high⟩
  refine hw.cons ⟨hlow, ?_, Nat.le_refl _⟩
  calc i.here.start.offset
      ≤ inner.start.offset := hb.low_le
    _ < inner.stop.offset := hb.start_lt
    _ ≤ k.last.stop.offset := hb.le_high

end Settled

end TemplateExpr
