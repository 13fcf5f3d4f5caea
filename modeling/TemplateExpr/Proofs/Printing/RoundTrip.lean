/-
  A printed tree is read back. The text of an expression is one statement of the same
  expression, whatever its operators are and however they are nested, so the precedences of the
  printer are those of the grammar. Neither functions nor numbers are needed for that; with them
  it holds of legible trees.

  * `ofText_of_erased`: a text is the program that its tokens are without their places.
  * `ofText_bits`: a text whose pieces read as statements is the program of these statements.
  * `Program.ofText_written`: legible programs.
  * `Expr.ofText_written_of_plain`: expressions without functions and numbers.
-/
import TemplateExpr.Syntax.OfText
import TemplateExpr.Proofs.Grammar.Complete
import TemplateExpr.Proofs.Places.Natural
import TemplateExpr.Proofs.Printing.Tree
import TemplateExpr.Proofs.Printing.Tokens

namespace TemplateExpr
open Source Production
open Bit (pieces)

/-! ## Trees without places -/

/-- The relabelling that moves everything to the same place. -/
def Relabel.erasing : Relabel :=
  .places fun _ => .nowhere

/-- The expression without its places. -/
def Expr.erased (e : Expr) : Expr :=
  e.relabel .erasing

/-- The program without its places. -/
def Program.erased (p : Program) : Program :=
  p.relabel .erasing

theorem lexical_followedBy_erasing : Relabel.lexical.followedBy .erasing = .bare := rfl

theorem Expr.erased_lexical (e : Expr) : (e.relabel .lexical).erased = e.relabel .bare := by
  rw [erased, relabel_relabel, lexical_followedBy_erasing]

/-! ## Texts of pieces -/

section
variable {g : Grammar} {bits : List Bit} {ss : List Statement}

/-- The input of a text of pieces is their tape, but for the places. -/
theorem relocate_input (ha : Bit.Apart true bits []) (hw : Bit.Whole g bits)
    (origin : Option Origin) (stop : Span) :
    (Input.ofTokens (Token.ofTextWithin g origin (Bit.text bits)) stop).relocate
      (fun _ => .nowhere) = tape (pieces bits) := by
  have ht := tokens_text ha hw Cursor.origin
  rw [Input.relocate, Input.ofTokens, Token.ofTextWithin, List.map_map, tape, ← ht]
  rfl

/-- A text whose tokens read as statements, without their places, is the program of these
    statements. -/
theorem ofText_of_erased {text : List Char} {origin : Option Origin}
    (hr : ReadsAll ((Input.ofTokens (Token.ofTextWithin g origin text)
      ((Span.at (Place.endOf text)).within origin)).relocate fun _ => .nowhere) ss)
    (url : Option String) :
    ∃ body whole, Program.ofText g origin url text = .ok ⟨body, whole, url⟩ ∧
      relabelStatements .erasing body = ss := by
  obtain ⟨j, hj⟩ := program_of_readsAll hr
  rw [natural_program] at hj
  cases hp : program (Input.ofTokens (Token.ofTextWithin g origin text)
      ((Span.at (Place.endOf text)).within origin)) with
  | error failure =>
    rw [hp] at hj
    cases hj
  | ok answer =>
    obtain ⟨body, k⟩ := answer
    rw [hp, outcome_ok] at hj
    obtain ⟨hs, -⟩ := Prod.mk.inj (Except.ok.inj hj)
    refine ⟨body, _, by rw [Program.ofText, hp], ?_⟩
    rw [relabelStatements_eq]
    exact hs

/-- A text whose pieces read as statements is the program of these statements. -/
theorem ofText_bits (ha : Bit.Apart true bits []) (hw : Bit.Whole g bits)
    (hr : ReadsAll (tape (pieces bits)) ss) (origin : Option Origin) (url : Option String) :
    ∃ body whole, Program.ofText g origin url (Bit.text bits) = .ok ⟨body, whole, url⟩ ∧
      relabelStatements .erasing body = ss :=
  ofText_of_erased (by rwa [relocate_input ha hw]) url

end

/-! ## Programs -/

theorem Program.apart {g : Grammar} {full care : Bool} {p : Program}
    (h : PrintableStatements g full false p.body) :
    Bit.Apart care p.bits [] ↔ (care = true → p.legible = true) := by
  have hs : ∀ s ∈ p.body, ∀ ds, Separated ds →
      (Bit.Apart care s.bits ds ↔ (care = true → s.legible = true)) := apart_statements p.body h
  have hj := apart_joined (c := ';') (by decide) hs separated_nil
  rwa [← bitsOfStatements_eq, ← legibleStatements_iff] at hj

/-- The text of a legible program is the program, with its names as they are written. -/
theorem Program.ofText_written {g : Grammar} {full : Bool} {p : Program}
    (h : PrintableStatements g full false p.body) (hl : p.legible = true)
    (origin : Option Origin) (url : Option String) :
    ∃ body whole, Program.ofText g origin url p.written.toList = .ok ⟨body, whole, url⟩ ∧
      relabelStatements .erasing body = relabelStatements .bare p.body := by
  have hw : Bit.Whole g p.bits := whole_joined (by decide) (whole_statements p.body h)
  have := ofText_bits ((Program.apart h).2 fun _ => hl) hw (readsAll_pieces h hl) origin url
  rwa [Program.text_bits] at this

/-! ## Expressions -/

section
variable {g : Grammar}

mutual

/-- Without functions and numbers, every expression is legible. -/
theorem Expr.legible_of_plain : ∀ e : Expr, e.Printable g false → e.legible = true
  | .identifier _, _ | .literal _ _ _, _ | .this _, _ => rfl
  | .array elements _, h => legibleList_of_plain elements h
  | .object properties _, h => legibleProperties_of_plain properties h
  | .member o p computed optional _, h => by
    have ho := Expr.legible_of_plain o h.1
    have hw : o.isWholeNumber = false := by
      cases o with
      | literal value =>
        cases value with
        | number => exact nomatch h.1.1
        | _ => rfl
      | _ => rfl
    have hp : p.legible = true := by
      cases computed with
      | true => exact Expr.legible_of_plain p h.2
      | false =>
        obtain ⟨id, rfl, -⟩ := IsName.identifier h.2
        rfl
    simp [Expr.legible, ho, hp, hw]
  | .call callee arguments _ _, h => by
    rw [Expr.legible, Expr.legible_of_plain callee h.1, legibleList_of_plain arguments h.2]
    rfl
  | .unary _ argument _, h => Expr.legible_of_plain argument h.2
  | .update _ _ argument _, h => Expr.legible_of_plain argument h.2.2
  | .binary _ left right _, h | .logical _ left right _, h => by
    rw [Expr.legible, Expr.legible_of_plain left h.2.1, Expr.legible_of_plain right h.2.2]
    rfl
  | .assignment _ left right _, h => by
    rw [Expr.legible, Expr.legible_of_plain left h.2.2.1, Expr.legible_of_plain right h.2.2.2]
    rfl
  | .conditional test consequent alternate _, h => by
    rw [Expr.legible, Expr.legible_of_plain test h.1, Expr.legible_of_plain consequent h.2.1,
      Expr.legible_of_plain alternate h.2.2]
    rfl
  | .sequence expressions _, h => legibleList_of_plain expressions h.2
  | .arrow _, h | .function _, h => nomatch h.1

theorem legibleList_of_plain : ∀ es : List Expr, PrintableList g false es →
    legibleList es = true
  | [], _ => rfl
  | e :: es, h => by
    rw [legibleList, Expr.legible_of_plain e h.1, legibleList_of_plain es h.2]
    rfl

theorem Property.legible_of_plain : ∀ p : Property, p.Printable g false → p.legible = true
  | ⟨key, value, _, true, _⟩, h => by
    obtain ⟨-, -, rfl, rfl, -⟩ := IsShorthand.identifiers h.2
    rfl
  | ⟨key, value, true, false, _⟩, h => by
    rw [Property.legible, Expr.legible_of_plain key h.1, Expr.legible_of_plain value h.2]
    rfl
  | ⟨key, value, false, false, _⟩, h => by
    rw [Property.legible, (@IsKey.apart g true key h.1 []).1, Expr.legible_of_plain value h.2]
    rfl

theorem legibleProperties_of_plain : ∀ ps : List Property, PrintableProperties g false ps →
    legibleProperties ps = true
  | [], _ => rfl
  | p :: ps, h => by
    rw [legibleProperties, Property.legible_of_plain p h.1, legibleProperties_of_plain ps h.2]
    rfl

end

end

/-- The text of an expression without functions and numbers is one statement of the same
    expression, with its names as they are written. -/
theorem Expr.ofText_written_of_plain (e : Expr) (h : e.Printable .template false)
    (origin : Option Origin) (url : Option String) :
    ∃ e' span whole, Program.ofText .template origin url e.written.toList =
        .ok ⟨[.expression e' span], whole, url⟩ ∧
      e'.erased = (e.relabel .lexical).erased := by
  have hl := e.legible_of_plain h
  have ha : Bit.Apart true e.bits [] :=
    (e.apart h [] (separated_nil.follows _)).2 fun _ => ⟨hl, fun _ => by simp⟩
  have hf : ∀ rest, (tape (pieces e.bits ++ rest)).atKeyword "function" = false := by
    intro rest
    obtain ⟨p, more, hb, ho⟩ := e.opens h
    cases hk : p.lexeme.isKeyword "function" with
    | false => rwa [hb]
    | true => exact nomatch (ho.function (Lexeme.isKeyword_iff.1 hk)).1
  have hs : ∀ a ∈ [e], StatementReading false (pieces a.bits)
      (.expression (a.relabel .bare) .nowhere) := by
    simpa using StatementReading.expression (e.reading h hl) e.sequence_le_precedence hf
  have hr : ReadsAll (tape (pieces e.bits)) [.expression (e.relabel .bare) .nowhere] :=
    readsAll_of_statements hs
  obtain ⟨body, whole, hp, hb⟩ := ofText_bits ha (e.whole h) hr origin url
  rw [Expr.text_bits] at hp
  rw [relabelStatements_eq, List.map_eq_singleton_iff] at hb
  obtain ⟨s, rfl, hs⟩ := hb
  cases s with
  | expression e' span =>
    obtain ⟨he, -⟩ := Statement.expression.inj hs
    exact ⟨e', span, whole, hp, he.trans e.erased_lexical.symm⟩
  | «return» argument => cases argument <;> cases hs
  | declaration => cases hs

/-- `(-#a) ** (b ?? #a)`. -/
theorem ofText_written_power : let a := Expr.identifier ⟨"a", some .state, .nowhere⟩
    let b := Expr.identifier ⟨"b", none, .nowhere⟩
    let e := Expr.binary "**" (.unary "-" a .nowhere) (.logical "??" b a .nowhere) .nowhere
    ∃ e' span whole, Program.ofText .template none none e.written.toList =
        .ok ⟨[.expression e' span], whole, none⟩ ∧
      e'.erased = (e.relabel .lexical).erased := by
  intro a b e
  have ha : Spelled .template (.name "#a") "#a" :=
    Lexeme.Alone.spelled ⟨'#', ['a'], by decide, by decide, by rfl⟩
  have hb : Spelled .template (.name "b") "b" :=
    Lexeme.Alone.spelled ⟨'b', [], by decide, by decide, by rfl⟩
  have ho : IsOperator true "??" := by
    unfold IsOperator
    decide
  exact e.ofText_written_of_plain ⟨.inl rfl, ⟨.inl (by decide), ha⟩, ho, hb, ha⟩ none none

end TemplateExpr
