/-
  Programs that were read from a text: the input that a text is, and what is known of every
  program that was read from one.

  * `readsAll_of_ofText`: its statements are the phrases of the input.
  * `Program.lexical_of_ofText`, `Program.printable_of_ofText`: its names are labelled as they
    are written, and it is printable.
  * `Program.identifiers_sublist`, `Program.context_of_ofText`: its identifiers are tokens of the
    text, and none has a context.
-/
import TemplateExpr.Syntax.OfText
import TemplateExpr.Proofs.Binding.Written
import TemplateExpr.Proofs.Grammar.Names
import TemplateExpr.Proofs.Grammar.Sound
import TemplateExpr.Proofs.Printing.Trace

namespace TemplateExpr
open Source Production

section
variable {g : Grammar} {origin : Option Origin} {url : Option String} {text : List Char}
  {p : Program}

/-- The input that a text is. -/
def Input.ofText (g : Grammar) (origin : Option Origin) (text : List Char) : Input :=
  .ofTokens (Token.ofTextWithin g origin text) ((Span.at (Place.endOf text)).within origin)

theorem lexed_ofText (g : Grammar) (origin : Option Origin) (text : List Char) :
    (Input.ofText g origin text).Lexed g := by
  intro token ht
  obtain ⟨original, ho, rfl⟩ := List.mem_map.1 ht
  have hs := Token.spelled_of_mem ho
  exact hs

theorem trace_ofText (g : Grammar) (origin : Option Origin) (text : List Char) :
    (Input.ofText g origin text).trace = traceOfTokens (Token.ofText g text) := by
  have moved : ∀ tokens : List Token, traceOfTokens (tokens.map (·.mapSpan (·.within origin))) =
      traceOfTokens tokens := by
    intro tokens
    induction tokens with
    | nil => rfl
    | cons token rest ih =>
      rw [List.map_cons, traceOfTokens, ih, traceOfTokens]
      cases rest <;> rfl
  exact moved _

theorem program_of_ofText (h : Program.ofText g origin url text = .ok p) :
    (∃ j, program (.ofText g origin text) = .ok (p.body, j)) ∧
      p.span = (Span.mk Place.origin (Place.endOf text)).within origin ∧ p.url = url := by
  unfold Program.ofText at h
  dsimp only at h
  split at h
  · next body rest hp =>
    cases h
    exact ⟨⟨rest, hp⟩, rfl, rfl⟩
  · cases h

theorem readsAll_of_ofText (h : Program.ofText g origin url text = .ok p) :
    ReadsAll (Input.ofText g origin text) p.body ∧ p.url = url := by
  obtain ⟨⟨j, hp⟩, -, hurl⟩ := program_of_ofText h
  exact ⟨readsAll_of_program hp, hurl⟩

/-- The names of a program that was read are labelled as they are written. -/
theorem Program.lexical_of_ofText (h : Program.ofText g origin url text = .ok p) :
    p.relabel .lexical = p := by
  rw [relabel, unlabelled_of_readsAll (readsAll_of_ofText h).1]
  rfl

theorem Program.printable_of_ofText (h : Program.ofText g origin url text = .ok p) :
    PrintableStatements g true false p.body :=
  printable_of_readsAll (readsAll_of_ofText h).1 (lexed_ofText g origin text)

theorem Program.identifiers_sublist (h : Program.ofText g origin url text = .ok p) :
    p.identifiers.Sublist ((Token.ofTextWithin g origin text).filterMap Token.identifier?) :=
  (readsAll_of_ofText h).1.identifiers_sublist

theorem Program.context_of_ofText (h : Program.ofText g origin url text = .ok p) :
    Unclassified p.identifiers := by
  intro id hid
  obtain ⟨token, -, hi⟩ := List.mem_filterMap.1 ((Program.identifiers_sublist h).subset hid)
  unfold Token.identifier? at hi
  split at hi <;> cases hi <;> rfl

end

end TemplateExpr
