/-
  Which errors of a scan name the document. An error inside a region is one of the parser, which
  knows the URL and never speaks of braces without partner. Such a brace ends the scan before any
  region is read, and its error has no URL, not even where a file is scanned under its own name.

  * `Program.error_of_ofText`: an error of the parser has the URL that the parser was given.
  * `Region.error_of_all`: an error of the search for regions has none.
  * `Dialect.url_of_scan`: both for the scan of a document and for that of a file.
-/
import TemplateExpr.CommandLine.Run
import TemplateExpr.Document.Scan
import TemplateExpr.Proofs.Grammar.Refusals

namespace TemplateExpr
open Source

/-! ## Errors of the parser -/

/-- A production never fails for a brace of the document. -/
theorem Refused.ne_openBrace {i : Input} {why : SyntaxFault} {place : Place}
    (h : Refused i (.fault why place)) : why ≠ .openBrace := by
  generalize hf : Failure.fault why place = failure at h
  cases h with
  | @next j hj =>
    obtain ⟨last, rest, stop⟩ := j
    cases rest with
    | nil => cases hf; exact SyntaxFault.noConfusion
    | cons token rest =>
      obtain ⟨lexeme, raw, newline, span⟩ := token
      cases lexeme <;> cases hf <;> exact SyntaxFault.noConfusion
  | target => cases hf; exact SyntaxFault.noConfusion
  | stray => cases hf; exact SyntaxFault.noConfusion

theorem Program.error_of_ofText {g : Grammar} {origin : Option Origin} {url : Option String}
    {text : List Char} {e : SyntaxError} (h : Program.ofText g origin url text = .error e) :
    e.url = url ∧ e.fault ≠ .openBrace := by
  unfold Program.ofText at h
  dsimp only at h
  split at h
  · cases h
  · next failure hp =>
    cases h
    cases failure with
    | fault why place => exact ⟨rfl, (Production.refused_of_program hp).ne_openBrace⟩
    | exhausted => exact ⟨rfl, SyntaxFault.noConfusion⟩

section
variable {dialect : Dialect} {around : Surroundings} {view : View} {e : SyntaxError}

theorem Dialect.error_of_report {code : String}
    (h : dialect.report around view code = .error e) :
    e.url = around.url ∧ e.fault ≠ .openBrace := by
  unfold report analyse parse at h
  cases hp : Program.ofText dialect.grammar around.origin around.url code.toList with
  | error e' =>
    rw [hp] at h
    cases h
    exact Program.error_of_ofText hp
  | ok p => rw [hp] at h; cases h

end

/-! ## Errors of the search for regions -/

theorem RegionWalk.error_of_next {walk after : RegionWalk} {e : SyntaxError}
    (h : walk.next = (some (.error e), after)) : e.url = none ∧ e.fault = .openBrace := by
  unfold next at h
  split at h
  · cases h
  · split at h
    · cases h
      exact ⟨rfl, rfl⟩
    · cases h

theorem RegionWalk.error_of_regions {walk : RegionWalk} {e : SyntaxError}
    (h : walk.regions = .error e) : e.url = none ∧ e.fault = .openBrace := by
  induction walk using regions.induct with
  | case1 walk ended hnext => rw [regions, hnext] at h; cases h
  | case2 walk e' ended hnext =>
    rw [regions, hnext] at h
    cases h
    exact error_of_next hnext
  | case3 walk first after hnext ih =>
    rw [regions, hnext] at h
    cases hmore : after.regions with
    | error e' =>
      simp only [hmore, Except.map] at h
      cases h
      exact ih hmore
    | ok others =>
      simp only [hmore, Except.map] at h
      cases h

theorem Region.error_of_all {document : List Char} {e : SyntaxError}
    (h : Region.all document = .error e) : e.url = none ∧ e.fault = .openBrace :=
  RegionWalk.error_of_regions h

/-! ## Scans -/

/-- The error of a region that is at fault. -/
def RegionReport.error? (report : RegionReport) : Option SyntaxError :=
  match report.outcome with
  | .ok _ => none
  | .error e => some e

/-- The syntax errors that a scan reports: those of the regions, or the one that ends it. -/
def syntaxErrors {ε : Type} (error? : ε → Option SyntaxError) :
    Except ε (List RegionReport) → List SyntaxError
  | .ok reports => reports.filterMap RegionReport.error?
  | .error e => (error? e).toList

/-- The syntax error of a command. -/
def CommandLine.CommandFault.syntaxError? : CommandFault → Option SyntaxError
  | syntaxError e => some e
  | settings _ | input _ | template _ _ => none

section
variable (dialect : Dialect) (around : Surroundings) (view : View) (document : String)

/-- The errors of a scan have the URL of the document, or none if they are about a brace. -/
theorem Dialect.url_of_mem_scan :
    ∀ e ∈ syntaxErrors some (dialect.scan around view document),
      e.url = if e.fault = .openBrace then none else around.url := by
  intro e he
  unfold scan at he
  cases hr : Region.all document.toList with
  | error e' =>
    rw [hr] at he
    obtain rfl := Option.mem_toList.1 he |> Option.some.inj
    obtain ⟨hurl, hfault⟩ := Region.error_of_all hr
    rw [if_pos hfault, hurl]
  | ok regions =>
    rw [hr] at he
    obtain ⟨report, hm, hreport⟩ := List.mem_filterMap.1 he
    obtain ⟨region, -, rfl⟩ := List.mem_map.1 hm
    have houtcome : dialect.report (around.at region) view (String.ofList region.code) =
        .error e := by
      unfold RegionReport.error? at hreport
      split at hreport
      · cases hreport
      · next e' h => exact Option.some.inj hreport ▸ h
    obtain ⟨hurl, hfault⟩ := Dialect.error_of_report houtcome
    rw [if_neg hfault, hurl]
    rfl

/-- The errors of the scan of a file are those of the scan of its text, under the URL that is
    given or else under the name of the file. -/
theorem CommandLine.syntaxErrors_scanTemplate {files : Files} {path : String}
    (h : files path = .ok document) :
    syntaxErrors CommandFault.syntaxError? (scanTemplate dialect files path around view) =
      syntaxErrors some
        (dialect.scan { around with url := some (around.url.getD path) } view document) := by
  unfold scanTemplate
  rw [h]
  dsimp only
  cases dialect.scan { around with url := some (around.url.getD path) } view document <;> rfl

end

/-- Of the errors that the scan of a document with a URL reports, those inside regions name the
    URL, and the one about a brace without partner names none. So it is for the errors that the
    scan of a file reports, with the name of the file where no URL is given. -/
theorem Dialect.url_of_scan (dialect : Dialect) (around : Surroundings) (view : View) :
    (∀ (document url : String), around.url = some url →
      ∀ e ∈ syntaxErrors some (dialect.scan around view document),
        e.url = if e.fault = .openBrace then none else some url) ∧
    (∀ (files : Files) (path : String),
      ∀ e ∈ syntaxErrors CommandLine.CommandFault.syntaxError?
        (CommandLine.scanTemplate dialect files path around view),
        e.url = if e.fault = .openBrace then none else some (around.url.getD path)) := by
  refine ⟨fun document url hurl e he => ?_, fun files path e he => ?_⟩
  · rw [← hurl]
    exact dialect.url_of_mem_scan around view document e he
  · cases hf : files path with
    | error fault =>
      unfold CommandLine.scanTemplate at he
      rw [hf] at he
      cases he
    | ok document =>
      rw [CommandLine.syntaxErrors_scanTemplate dialect around view document hf] at he
      exact dialect.url_of_mem_scan _ view document e he

/-- Three regions, of which the first and the last are at fault, in a document and in a file. -/
theorem url_of_scan_regions :
    let text := "\x7ba b\x7d \x7ba\x7d \x7b!\x7d"
    let around : Surroundings := { url := some "page.html" }
    let errors := syntaxErrors some (({} : Dialect).scan around .tree text)
    let files : Files := fun _ => .ok text
    let errors' := syntaxErrors CommandLine.CommandFault.syntaxError?
      (CommandLine.scanTemplate {} files "page.html" {} .tree)
    around.url = some "page.html" ∧ errors.map (·.place.offset) = [3, 12] ∧
      (∀ e ∈ errors, e.url = if e.fault = .openBrace then none else some "page.html") ∧
      (∀ e ∈ errors', e.url = if e.fault = .openBrace then none else some "page.html") := by
  intro text around errors files errors'
  have hall : Region.all text.toList = .ok [⟨"a b".toList, ⟨1, 0, 1⟩, 0, 5⟩,
      ⟨"a".toList, ⟨7, 0, 7⟩, 6, 9⟩, ⟨"!".toList, ⟨11, 0, 11⟩, 10, 13⟩] := by
    subst text
    cbv
  have hoffsets : errors.map (·.place.offset) = [3, 12] := by
    subst errors
    rw [Dialect.scan, hall]
    decide +kernel
  exact ⟨rfl, hoffsets, (Dialect.url_of_scan {} around .tree).1 text "page.html" rfl,
    (Dialect.url_of_scan {} {} .tree).2 files "page.html"⟩

/-- The error of a brace without partner names neither the URL of the document nor its file. -/
theorem scan_openBrace_unnamed :
    let unnamed : SyntaxError := ⟨.openBrace, ⟨0, ⟨1, 0⟩⟩, none⟩
    ({} : Dialect).scan { url := some "page.html" } .tree "\x7ba" = .error unnamed ∧
      CommandLine.scanTemplate {} (fun _ => .ok "\x7ba") "page.html" {} .tree =
        .error (.syntaxError unnamed) := by
  intro unnamed
  have hall : Region.all "\x7ba".toList = .error unnamed := by cbv
  have hscan : ∀ url, ({} : Dialect).scan { url := url } .tree "\x7ba" = .error unnamed := by
    intro url
    rw [Dialect.scan, hall]
    rfl
  refine ⟨hscan _, ?_⟩
  rw [CommandLine.scanTemplate]
  dsimp only
  rw [hscan]
  rfl

end TemplateExpr
