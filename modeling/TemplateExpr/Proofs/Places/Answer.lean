/-
  Where the places of an answer come from. The parser makes no places of its own: what holds of
  all places of an input holds of all places of the program or the failure that it answers.

  * `program_places`, `program_failure_place`.
-/
import TemplateExpr.Proofs.Places.Natural
import TemplateExpr.Proofs.Tree.Spans

namespace TemplateExpr.Production
open Source (Place Span)

/-- Both ends of the span have the property. -/
def Ends (P : Place → Prop) (span : Span) : Prop :=
  P span.start ∧ P span.stop

/-- All places of the input have the property. -/
structure Placed (P : Place → Prop) (i : Input) : Prop where
  last : Ends P i.last
  stop : Ends P i.stop
  rest : ∀ token ∈ i.rest, Ends P token.span

section
variable {P : Place → Prop} {i : Input}

open Classical in
/-- The places with the property stay, and all others become one of them. -/
noncomputable def settle (P : Place → Prop) (default : Place) (place : Place) : Place :=
  if P place then place else default

theorem settle_eq {default place : Place} (h : P place) : settle P default place = place :=
  if_pos h

theorem settle_holds {default : Place} (hd : P default) (place : Place) :
    P (settle P default place) := by
  unfold settle
  split
  · assumption
  · exact hd

theorem relocate_settle_span {default : Place} {span : Span} (h : Ends P span) :
    span.relocate (settle P default) = span := by
  rw [Source.Span.relocate, settle_eq h.1, settle_eq h.2]

theorem relocate_settle {default : Place} (h : Placed P i) :
    i.relocate (settle P default) = i := by
  have rest : i.rest.map (Token.relocate (settle P default)) = i.rest := by
    refine (List.map_congr_left fun token ht => ?_).trans (List.map_id i.rest)
    change { token with span := token.span.relocate (settle P default) } = token
    rw [relocate_settle_span (h.rest token ht)]
  rw [Input.relocate, relocate_settle_span h.last, relocate_settle_span h.stop, rest]

/-- What the parser answers for a placed input is not changed by settling its places. -/
theorem outcome_settle (h : Placed P i) :
    outcome (settle P i.stop.start) (program i) = program i := by
  rw [← natural_program, relocate_settle h]

theorem uniform_places (f : Place → Place) : (Relabel.places f).Uniform :=
  ⟨fun _ => rfl, fun _ => rfl⟩

/-- The places of a program are places of its input. -/
theorem program_places (h : Placed P i) {ss : List Statement} {j : Input}
    (hp : program i = .ok (ss, j)) : ∀ span ∈ spansOfStatements ss, Ends P span := by
  have ho := outcome_settle h
  rw [hp, outcome_ok] at ho
  obtain ⟨hs, -⟩ := Prod.mk.inj (Except.ok.inj ho)
  have hspans : spansOfStatements ss =
      (spansOfStatements ss).map (·.relocate (settle P i.stop.start)) :=
    calc spansOfStatements ss
        = spansOfStatements (Located.relocate (settle P i.stop.start) ss) := by rw [hs]
      _ = spansOfStatements (relabelStatements (.places (settle P i.stop.start)) ss) :=
          congrArg spansOfStatements (relabelStatements_eq _ ss).symm
      _ = _ := spansOfStatements_relabel (uniform_places _) ss
  intro span hm
  rw [hspans] at hm
  obtain ⟨original, -, rfl⟩ := List.mem_map.1 hm
  exact ⟨settle_holds h.stop.1 _, settle_holds h.stop.1 _⟩

/-- The place of a failure is a place of its input. -/
theorem program_failure_place (h : Placed P i) {why : SyntaxFault} {place : Place}
    (hp : program i = .error (.fault why place)) : P place := by
  have ho := outcome_settle h
  rw [hp, outcome_error] at ho
  have hf : settle P i.stop.start place = place := (Failure.fault.inj (Except.error.inj ho)).2
  rw [← hf]
  exact settle_holds h.stop.1 place

end

end TemplateExpr.Production
