/-
  Reading and moving commute: what a text is within a document is what the text is by itself,
  moved to where it begins there. Nothing else of the document has a part in it.

  * `Dialect.analyse_at_origin`: the classified program of a text, or the error.
  * `Dialect.report_within`: what is shown of it, be it the tree or its bindings.
  * `Dialect.analyse_within`: both, and regions with the same code in any two documents.
-/
import TemplateExpr.Document.Scan
import TemplateExpr.Proofs.Document.Bindings
import TemplateExpr.Proofs.Places.Within
import TemplateExpr.Proofs.Tree.Identifiers

namespace TemplateExpr
open Source Production

/-! ## Answers in another place -/

def Binding.relocate (f : Place → Place) (b : Binding) : Binding :=
  { b with span := b.span.relocate f }

def Report.relocate (f : Place → Place) : Report → Report
  | tree program => .tree (program.relocate f)
  | bindings found => .bindings (found.map (·.relocate f))

theorem map_relocateAnswer {α β : Type} {relocate : (Place → Place) → α → α}
    {relocate' : (Place → Place) → β → β} {f : Place → Place} {g : α → β}
    {answer : Except SyntaxError α}
    (h : ∀ a, answer = .ok a → g (relocate f a) = relocate' f (g a)) :
    (relocateAnswer relocate f answer).map g = relocateAnswer relocate' f (answer.map g) := by
  cases answer with
  | error e => rfl
  | ok a => exact congrArg Except.ok (h a rfl)

/-- Moving does not change the order of the bindings, if it does not change that of the
    identifiers. -/
theorem Program.bindings_relocate {f : Place → Place} {p : Program}
    (h : p.identifiers.Pairwise fun a b => a.span.start.offset < b.span.start.offset)
    (hf : (p.relocate f).identifiers.Pairwise
      fun a b => a.span.start.offset < b.span.start.offset) :
    (p.relocate f).bindings = p.bindings.map (·.relocate f) := by
  have hids := Program.identifiers_relabel (r := .places f) rfl p
  rw [(bindings_of_ascending h).1, (bindings_of_ascending hf).1, Program.relocate, hids,
    List.filterMap_map, List.map_filterMap]
  refine List.filterMap_congr fun id _ => ?_
  change Option.map _ _ = Option.map _ (Option.map _ _)
  rw [Option.map_map]
  rfl

/-! ## Analysis -/

namespace Dialect

variable (dialect : Dialect) (around : Surroundings)

theorem analyse_at_origin (origin : Origin) (code : String) :
    dialect.analyse { around with origin := some origin } code =
      relocateAnswer Program.relocate origin.movePlace
        (dialect.analyse { around with origin := none } code) := by
  unfold analyse parse
  rw [Program.ofText_within]
  exact map_relocateAnswer fun p _ => Program.classify_relocate _ _ p

/-- What is shown of a text that fits into its document. -/
theorem report_within {origin : Origin} {code : String}
    (hfit : FitsWithin (some origin) code.toList) (view : View) :
    dialect.report { around with origin := some origin } view code =
      relocateAnswer Report.relocate origin.movePlace
        (dialect.report { around with origin := none } view code) := by
  unfold report
  rw [analyse_at_origin]
  refine map_relocateAnswer fun p hp => ?_
  cases view with
  | tree => rfl
  | bindings =>
    have hmoved : dialect.analyse { around with origin := some origin } code =
        .ok (p.relocate origin.movePlace) := by
      rw [analyse_at_origin, hp]
      rfl
    have halone : FitsWithin none code.toList := trivial
    exact congrArg Report.bindings
      (Program.bindings_relocate (identifiers_ascending halone hp)
        (identifiers_ascending hfit hmoved))

/-- What a region is found to be is what its code is by itself, moved to where it begins. -/
theorem outcome_scanRegion (view : View) {region : Region} {document : List Char}
    (hd : Bounded document) (hr : region.FoundIn document) :
    (dialect.scanRegion around view region).outcome =
      relocateAnswer Report.relocate region.origin.movePlace
        (dialect.report { around with origin := none } view (String.ofList region.code)) := by
  obtain ⟨before, after, hstands⟩ := hr.split
  exact dialect.report_within around (by rw [String.toList_ofList]; exact hstands.fits hd) view

/-- A text that begins at an origin is what it is by itself, moved there: a tree has all its spans
    moved and nothing else changed, and an error its place. So regions with the same code, in any
    two documents whose positions do not overflow, are the same but for where they are. -/
theorem analyse_within :
    (∀ (origin : Origin) (code : String),
      dialect.analyse { around with origin := some origin } code =
        relocateAnswer Program.relocate origin.movePlace
          (dialect.analyse { around with origin := none } code)) ∧
    (∀ (view : View) (document document' : String) (reports reports' : List RegionReport),
      Bounded document.toList → Bounded document'.toList →
      dialect.scan around view document = .ok reports →
      dialect.scan around view document' = .ok reports' →
      ∀ report ∈ reports, ∀ report' ∈ reports', report.region.code = report'.region.code →
        let alone := dialect.report { around with origin := none } view
          (String.ofList report.region.code)
        report.outcome =
            relocateAnswer Report.relocate report.region.origin.movePlace alone ∧
          report'.outcome =
            relocateAnswer Report.relocate report'.region.origin.movePlace alone) := by
  have outcome : ∀ {view document reports}, Bounded document.toList →
      dialect.scan around view document = .ok reports →
      ∀ report ∈ reports, report.outcome =
        relocateAnswer Report.relocate report.region.origin.movePlace
          (dialect.report { around with origin := none } view
            (String.ofList report.region.code)) := by
    intro view document reports hd h report hm
    unfold scan at h
    cases hr : Region.all document.toList with
    | error e => rw [hr] at h; cases h
    | ok regions =>
      rw [hr] at h
      cases h
      obtain ⟨region, hregion, rfl⟩ := List.mem_map.1 hm
      exact dialect.outcome_scanRegion around view hd (Region.foundIn_of_mem_all hr hregion)
  refine ⟨dialect.analyse_at_origin around, ?_⟩
  intro view document document' reports reports' hd hd' h h' report hm report' hm' hcode
  refine ⟨outcome hd h report hm, ?_⟩
  rw [hcode]
  exact outcome hd' h' report' hm'

end Dialect

/-- The same code in two documents, the second time behind a text literal on the second line. -/
theorem analyse_within_twice :
    let first : Region := ⟨"#a".toList, ⟨1, 0, 1⟩, 0, 4⟩
    let second : Region := ⟨"#a".toList, ⟨8, 1, 6⟩, 7, 11⟩
    let found (region : Region) := ({} : Dialect).scanRegion {} .bindings region
    let alone := ({} : Dialect).report {} .bindings (String.ofList first.code)
    ∃ reports reports', ({} : Dialect).scan {} .bindings "\x7b#a\x7d" = .ok reports ∧
      ({} : Dialect).scan {} .bindings "b\n\x7b'c'\x7d\x7b#a\x7d" = .ok reports' ∧
      found first ∈ reports ∧ found second ∈ reports' ∧ first.code = second.code ∧
      (found first).outcome = relocateAnswer Report.relocate first.origin.movePlace alone ∧
      (found second).outcome = relocateAnswer Report.relocate second.origin.movePlace alone := by
  intro first second found alone
  have hd : Bounded "\x7b#a\x7d".toList := by decide
  have hd' : Bounded "b\n\x7b'c'\x7d\x7b#a\x7d".toList := by decide
  have hall : Region.all "\x7b#a\x7d".toList = .ok [first] := by cbv
  have hall' : Region.all "b\n\x7b'c'\x7d\x7b#a\x7d".toList =
      .ok [⟨"'c'".toList, ⟨3, 1, 1⟩, 2, 7⟩, second] := by cbv
  have h : ({} : Dialect).scan {} .bindings "\x7b#a\x7d" = .ok [found first] := by
    rw [Dialect.scan, hall]
    rfl
  have h' : ({} : Dialect).scan {} .bindings "b\n\x7b'c'\x7d\x7b#a\x7d" =
      .ok [found ⟨"'c'".toList, ⟨3, 1, 1⟩, 2, 7⟩, found second] := by
    rw [Dialect.scan, hall']
    rfl
  have hm : found first ∈ [found first] := List.mem_cons_self
  have hm' : found second ∈ [found ⟨"'c'".toList, ⟨3, 1, 1⟩, 2, 7⟩, found second] :=
    List.mem_cons_of_mem _ List.mem_cons_self
  exact ⟨_, _, h, h', hm, hm', rfl,
    (Dialect.analyse_within {} {}).2 .bindings _ _ _ _ hd hd' h h' _ hm _ hm' rfl⟩

end TemplateExpr
