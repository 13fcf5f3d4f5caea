/-
  When the text of a program that was read is read back as the same program: if and only if the
  program is legible. So what the printer of trees promises holds but for two slips, the point
  behind a whole number and the brace behind `=>`, and those two always break the promise.

  * `Program.legible_of_ofText`: a text that is read back is legible.
  * `Program.ofText_written_iff`: programs that were read.
  * `Dialect.analyse_written_iff`: programs with classified names.
-/
import TemplateExpr.Template
import TemplateExpr.Proofs.Binding.Labels
import TemplateExpr.Proofs.Binding.Written
import TemplateExpr.Proofs.Printing.Labels
import TemplateExpr.Proofs.Printing.OfText
import TemplateExpr.Proofs.Printing.RoundTrip

namespace TemplateExpr
open Source Production

/-! ## Programs that were read -/

section
variable {g : Grammar} {origin : Option Origin} {url : Option String} {text : List Char}
  {p q : Program}

theorem Program.erased_of_ofText (h : Program.ofText g origin url text = .ok p) :
    p.erased = p.relabel .bare := by
  have hr := p.relabel_relabel .lexical .erasing
  rwa [Program.lexical_of_ofText h] at hr

/-- If the text of a program is read back as the program, the program is legible. -/
theorem Program.legible_of_ofText (h : PrintableStatements g true false p.body)
    (hq : Program.ofText g origin url p.written.toList = .ok q)
    (hb : q.relabel .bare = p.relabel .bare) : p.legible = true := by
  have bits : ∀ p : Program, (p.relabel .bare).bits = p.bits := fun p =>
    congrArg (Bit.joined ';') (bitsOfStatements_relabel Relabel.keepsWritten_bare p.body)
  have ht := trace_of_readsAll (readsAll_of_ofText hq).1 (lexed_ofText g origin _)
  rw [trace_ofText, ← trace_bitsOfStatements ';', ← Program.bits, ← bits, hb, bits,
    ← Program.text_bits] at ht
  have hw : Bit.Whole g p.bits := whole_joined (by decide) (whole_statements p.body h)
  exact (Program.apart h).1 (apart_of_trace ((Program.apart h).2 fun hc => by cases hc) hw ht) rfl

end

/-! ## Programs with classified names -/

theorem Relabel.hides_lexical (v : Vocabulary) : Relabel.lexical.Hides .lexical v := by
  intro bound standing id
  unfold Identifier.scoped
  split
  · have hw := write_resolve v.helpers (Relabel.lexical.onName id).name
    exact congrArg (fun name => (⟨name, none, id.span⟩ : Identifier)) hw
  · rfl

/-- Putting the sigils back undoes the classification. -/
theorem Program.lexical_classify (v : Vocabulary) {p : Program} (h : p.relabel .lexical = p) :
    (p.classify v).relabel .lexical = p := by
  have hb : relabelStatements .lexical p.body = p.body := congrArg Program.body h
  have hc := relabelStatements_scoped (Relabel.hides_lexical v) ∅ p.body
  rw [hb, ← Program.body_classify, hb] at hc
  exact congrArg (fun body => { p with body := body }) hc

section
variable {g : Grammar} {origin : Option Origin} {url : Option String} {text : List Char}
  {p : Program} (v : Vocabulary)

/-- What a program that was read is, but for the places, is still told by its classification. -/
theorem Program.bare_of_classify (hp : Program.ofText g origin url text = .ok p) :
    p.relabel .bare = (p.classify v).erased.relabel .lexical :=
  calc p.relabel .bare
    _ = ((p.classify v).relabel .lexical).relabel .bare := by
      rw [Program.lexical_classify v (Program.lexical_of_ofText hp)]
    _ = (p.classify v).erased.relabel .lexical :=
      (Program.relabel_relabel .lexical .bare _).trans
        (Program.relabel_relabel .erasing .lexical _).symm

/-- Programs that are the same but for the places are classified in the same way. -/
theorem Program.erased_classify {q : Program} (h : q.erased = p.erased) :
    (q.classify v).erased = (p.classify v).erased := by
  have hcommutes := Program.classify_relocate v fun _ => .nowhere
  exact (hcommutes q).symm.trans ((congrArg (Program.classify v) h).trans (hcommutes p))

theorem Program.ofText_written_iff (hp : Program.ofText g origin url text = .ok p)
    (origin' : Option Origin) :
    (∃ q, Program.ofText g origin' url p.written.toList = .ok q ∧
      (q.classify v).erased = (p.classify v).erased) ↔ p.legible = true := by
  have hprintable := Program.printable_of_ofText hp
  constructor
  · rintro ⟨q, hq, he⟩
    refine Program.legible_of_ofText hprintable hq ?_
    rw [Program.bare_of_classify v hq, he, ← Program.bare_of_classify v hp]
  · intro hl
    obtain ⟨body, whole, hq, hb⟩ := Program.ofText_written hprintable hl origin' url
    refine ⟨_, hq, Program.erased_classify v ?_⟩
    rw [Program.erased_of_ofText hp, ← (readsAll_of_ofText hp).2]
    exact congrArg (fun body => (⟨body, .nowhere, p.url⟩ : Program)) hb

end

/-- The text of a program is read as the same program, but for the places, if and only if the
    program is legible. -/
theorem Dialect.analyse_written_iff (dialect : Dialect) (around : Surroundings) {code : String}
    {p : Program} (h : dialect.analyse around code = .ok p) (origin : Option Origin) :
    (∃ q, dialect.analyse { around with origin := origin } p.written = .ok q ∧
      q.erased = p.erased) ↔ p.legible = true := by
  obtain ⟨parsed, hp, rfl⟩ := analyse_eq_ok_iff.1 h
  -- the text of the classified program, and its legibility, are those of the program as read
  have hlexical := Program.lexical_classify (dialect.vocabulary around)
    (Program.lexical_of_ofText hp)
  have hwritten := Program.written_relabel Relabel.keepsWritten_lexical
    (parsed.classify (dialect.vocabulary around))
  have hlegible := Program.legible_relabel Relabel.keepsWritten_lexical
    (parsed.classify (dialect.vocabulary around))
  rw [hlexical] at hwritten hlegible
  rw [← hwritten, ← hlegible, ← Program.ofText_written_iff (dialect.vocabulary around) hp origin]
  constructor
  · rintro ⟨q, hq, he⟩
    obtain ⟨again, hr, rfl⟩ := analyse_eq_ok_iff.1 hq
    exact ⟨again, hr, he⟩
  · rintro ⟨again, hr, he⟩
    exact ⟨_, analyse_eq_ok_iff.2 ⟨again, hr, rfl⟩, he⟩

/-- `#a + f(1)` is read, is legible, and is read back. -/
theorem analyse_written_sum : ∃ p, ({} : Dialect).analyse {} "#a + f(1)" = .ok p ∧
    ∃ q, ({} : Dialect).analyse {} p.written = .ok q ∧ q.erased = p.erased := by
  have hread : (({} : Dialect).analyse {} "#a + f(1)").toOption.any (·.legible) = true := by
    decide +kernel
  obtain ⟨p, hsome, hl⟩ := (Option.any_eq_true _ _).1 hread
  have hp := eq_ok_of_toOption hsome
  exact ⟨p, hp, (Dialect.analyse_written_iff {} {} hp none).2 hl⟩

/-- The two slips: `1.a` is printed for `1 .a`, and `(x) => {}.a` for `x => ({}).a`. -/
theorem analyse_written_slips :
    let slips (code : String) : Prop := ∃ p, ({} : Dialect).analyse {} code = .ok p ∧
      ¬ ∃ q, ({} : Dialect).analyse {} p.written = .ok q ∧ q.erased = p.erased
    slips "1 .a" ∧ slips "x => ({}).a" := by
  intro slips
  have of_not_legible : ∀ code,
      (({} : Dialect).analyse {} code).toOption.any (!·.legible) = true → slips code := by
    intro code hslip
    obtain ⟨p, hsome, hl⟩ := (Option.any_eq_true _ _).1 hslip
    have hp := eq_ok_of_toOption hsome
    refine ⟨p, hp, fun hq => ?_⟩
    rw [(Dialect.analyse_written_iff {} {} hp none).1 hq] at hl
    cases hl
  exact ⟨of_not_legible _ (by decide +kernel), of_not_legible _ (by decide +kernel)⟩

end TemplateExpr
