/-
  Programs one after the other. A semicolon on a line of its own ends the last statement of one
  program, whatever it is and whatever comment stands behind it, and the next program begins behind
  it as at the start of a text. The line end has one effect there: the first token begins a line.
  No production asks that of its first token, since what it decides, whether a statement has ended
  or an update belongs to its operand, lies behind an operand.

  * `Production.program_onNewLine`: the first token may begin a line.
  * `Program.ofText_joined`: the statements of two programs are those of the joined text.
-/
import TemplateExpr.Proofs.Grammar.Followed
import TemplateExpr.Proofs.Token.Joined

namespace TemplateExpr
open Source Production

/-! ## The first token -/

/-- The input, of which the next token begins a line. -/
def Input.onNewLine (i : Input) : Input :=
  { i with rest := Token.onNewLine i.rest }

namespace Production
variable (rules : Rules) (i : Input)

theorem primary_onNewLine : primary rules i.onNewLine = primary rules i := by
  obtain ⟨last, rest, stop⟩ := i
  cases rest <;> rfl

theorem chain_onNewLine : chain rules i.onNewLine = chain rules i := by
  rw [chain, primary_onNewLine, chain]

theorem postfixed_onNewLine : postfixed rules i.onNewLine = postfixed rules i := by
  rw [postfixed, chain_onNewLine, postfixed]

theorem prefixed_onNewLine : prefixed rules i.onNewLine = prefixed rules i := by
  have hpostfixed := postfixed_onNewLine rules i
  obtain ⟨last, rest, stop⟩ := i
  cases rest with
  | nil => rfl
  | cons token rest =>
    unfold prefixed
    rw [hpostfixed]
    rfl

theorem power_onNewLine : power rules i.onNewLine = power rules i := by
  rw [power, prefixed_onNewLine, power]

theorem ladder_onNewLine (levels : List Operator.Level) :
    ladder (power rules) levels i.onNewLine = ladder (power rules) levels i := by
  induction levels with
  | nil => exact power_onNewLine rules i
  | cons level tighter ih => rw [ladder, ih, ladder]

theorem conditional_onNewLine : conditional rules i.onNewLine = conditional rules i := by
  rw [conditional, operation, ladder_onNewLine, conditional, operation]

theorem arrowParams_onNewLine : arrowParams rules i.onNewLine = arrowParams rules i := by
  obtain ⟨last, rest, stop⟩ := i
  cases rest with
  | nil => rfl
  | cons token rest =>
    obtain ⟨lexeme, raw, newline, span⟩ := token
    cases lexeme <;> rfl

theorem arrow_onNewLine : arrow rules i.onNewLine = arrow rules i := by
  have hhere : i.onNewLine.here = i.here := by
    obtain ⟨last, rest, stop⟩ := i
    cases rest <;> rfl
  rw [arrow, arrowParams_onNewLine, hhere, arrow]

theorem assignment_onNewLine : assignment rules i.onNewLine = assignment rules i := by
  have htest : atArrow i.onNewLine = atArrow i := by
    obtain ⟨last, rest, stop⟩ := i
    cases rest <;> rfl
  rw [assignment, arrow_onNewLine, conditional_onNewLine, htest, assignment]

theorem sequence_onNewLine :
    sequence (assignment rules) i.onNewLine = sequence (assignment rules) i := by
  rw [sequence, assignment_onNewLine, sequence]

theorem statement_onNewLine (inBody : Bool) :
    statement rules inBody i.onNewLine = statement rules inBody i := by
  have hsequence := sequence_onNewLine rules i
  obtain ⟨last, rest, stop⟩ := i
  cases rest with
  | nil => rfl
  | cons token rest =>
    unfold statement expressionStatement
    rw [hsequence]
    rfl

/-- A program is the same whether its first token begins a line or not. -/
theorem program_onNewLine : program i.onNewLine = program i := by
  have hstatement := fun n => statement_onNewLine (rules n) i false
  obtain ⟨last, rest, stop⟩ := i
  cases rest with
  | nil => rfl
  | cons token rest =>
    unfold program
    rw [programStatements, programStatements, ← hstatement]
    rfl

end Production

/-! ## Programs -/

section
variable {g : Grammar} {origin origin' : Option Origin} {url url' : Option String}
  {text a b : List Char} {p q : Program}

theorem Input.erased_ofText (g : Grammar) (origin : Option Origin) (text : List Char) :
    (Input.ofText g origin text).relocate (fun _ => .nowhere) =
      .ofTokens ((Token.ofText g text).map Token.erased) .nowhere := by
  rw [relocate, ofText, ofTokens, Token.ofTextWithin, List.map_map]
  rfl

/-- Without its places, a program is what its tokens are without theirs. -/
theorem program_of_erased (h : Program.ofText g origin url text = .ok p) :
    ∃ j, program (.ofTokens ((Token.ofText g text).map Token.erased) .nowhere) =
      .ok (p.erased.body, j) := by
  obtain ⟨⟨j, hp⟩, -⟩ := program_of_ofText h
  have hn := natural_program (fun _ => .nowhere) (Input.ofText g origin text)
  rw [Input.erased_ofText, hp, outcome_ok] at hn
  have hbody : p.erased.body = p.body.map (·.relocate fun _ => .nowhere) :=
    relabelStatements_eq _ p.body
  rw [hbody]
  exact ⟨_, hn⟩

theorem relabelStatements_erasing (ss : List Statement) :
    relabelStatements .erasing (relabelStatements .erasing ss) = relabelStatements .erasing ss :=
  relabelStatements_relabel .erasing .erasing ss

theorem relabelStatements_append (r : Relabel) (ss ts : List Statement) :
    relabelStatements r (ss ++ ts) = relabelStatements r ss ++ relabelStatements r ts := by
  rw [relabelStatements_eq, relabelStatements_eq, relabelStatements_eq, List.map_append]

/-- Two programs with a semicolon on a line between them are one, which has the statements of both
    but for their places. -/
theorem Program.ofText_joined (ha : ofText g origin url a = .ok p)
    (hb : ofText g origin' url' b = .ok q) (origin'' : Option Origin) (url'' : Option String) :
    ∃ r, ofText g origin'' url'' (a ++ '\n' :: ';' :: '\n' :: b) = .ok r ∧
      r.erased.body = p.erased.body ++ q.erased.body := by
  obtain ⟨j, hp⟩ := program_of_erased ha
  obtain ⟨l, hq⟩ := program_of_erased hb
  rw [← Production.program_onNewLine] at hq
  obtain ⟨front, hfront, he⟩ := (readsAll_of_program hp).followed
    ⟨.mark ';', ";", true, .nowhere⟩ rfl (readsAll_of_program hq)
  have htokens := Token.map_erased_joined (faultless_of_ofText ha) (faultless_of_ofText hb)
  have hinput : ReadsAll ((Input.ofText g origin'' (a ++ '\n' :: ';' :: '\n' :: b)).relocate
      fun _ => .nowhere) (front ++ q.erased.body) := by
    rw [Input.erased_ofText, htokens]
    exact hfront
  obtain ⟨body, whole, hr, hbody⟩ := ofText_of_erased hinput url''
  refine ⟨_, hr, ?_⟩
  calc relabelStatements .erasing body
      = relabelStatements .erasing (relabelStatements .erasing body) :=
        (relabelStatements_erasing body).symm
    _ = relabelStatements .erasing front ++ relabelStatements .erasing q.erased.body := by
        rw [hbody, relabelStatements_append]
    _ = relabelStatements .erasing p.erased.body ++ relabelStatements .erasing q.erased.body := by
        rw [he]
    _ = p.erased.body ++ q.erased.body :=
        congrArg₂ (· ++ ·) (relabelStatements_erasing p.body) (relabelStatements_erasing q.body)

/-- A line comment that would swallow a separator on its line, and a program that would be the
    arguments of a call. -/
theorem Program.ofText_joined_comment :
    let a := "x // one".toList
    let b := "(y)".toList
    ∃ p q r, ofText .template none none a = .ok p ∧ ofText .template none none b = .ok q ∧
      ofText .template none none (a ++ '\n' :: ';' :: '\n' :: b) = .ok r ∧
      r.erased.body = p.erased.body ++ q.erased.body := by
  intro a b
  obtain ⟨p, hp⟩ : ∃ p, ofText .template none none a = .ok p :=
    exists_eq_ok_of_isOk (by decide +kernel)
  obtain ⟨q, hq⟩ : ∃ q, ofText .template none none b = .ok q :=
    exists_eq_ok_of_isOk (by decide +kernel)
  obtain ⟨r, hr, hbody⟩ := Program.ofText_joined hp hq none none
  exact ⟨p, q, r, hp, hq, hr, hbody⟩

end

end TemplateExpr
