/-
  How pieces of statements are put together, in the body of a function and in a program. A
  statement is followed by `;`, by the brace that closes the body, or by nothing; some kinds of
  statements take the `;` with them and some leave it (`Resumes`).

  * `BlockReading.of_statements`, `readsAll_of_statements`: statements in a row.
-/
import TemplateExpr.Proofs.Printing.Functions

namespace TemplateExpr
open Source (Place Span)
open Production

variable {ps rest : List Piece} {e : Expr} {m : Nat} {inBody : Bool}

/-- A statement may end before these pieces. -/
def Ends (inBody : Bool) : List Piece → Prop
  | [] => inBody = false
  | p :: _ => p = Piece.mark ';' ∨ (inBody = true ∧ p = Piece.mark '}')

/-- The input is what is left of the pieces, perhaps without a `;` at their front. -/
def Resumes (j : Input) (rest : List Piece) : Prop :=
  j = tape rest ∨ ∃ more, rest = Piece.mark ';' :: more ∧ j = tape more

theorem Ends.stops (h : Ends inBody rest) : Stops Precedence.sequence rest := by
  cases rest with
  | nil => trivial
  | cons p rest =>
    obtain rfl | ⟨-, rfl⟩ := h <;> exact stops_mark (by decide)

theorem Ends.statementEnd (h : Ends inBody rest) :
    ∃ j, Resumes j rest ∧ j.spanFrom .nowhere = .nowhere ∧
      Production.statementEnd inBody (tape rest) = .ok j := by
  cases rest with
  | nil => exact ⟨tape [], .inl rfl, rfl, rfl⟩
  | cons p rest =>
    obtain rfl | ⟨rfl, rfl⟩ := h
    · exact ⟨tape rest, .inr ⟨rest, rfl, rfl⟩, rfl, rfl⟩
    · exact ⟨tape (Piece.mark '}' :: rest), .inl rfl, rfl, rfl⟩

/-- The pieces read as the statement, where a statement may end. -/
structure StatementReading (inBody : Bool) (ps : List Piece) (s : Statement) : Prop where
  notClose : ∀ rest, (tape (ps ++ rest)).atMark '}' = false
  notEmpty : ∀ rest, (tape (ps ++ rest)).atMark ';' = false
  reads : ∀ rest, Ends inBody rest →
    ∃ j, Resumes j rest ∧ Reads (.statement inBody) (tape (ps ++ rest)) s j

/-! ## Kinds of statements -/

theorem StatementReading.expression (h : Reading ps e m) (hm : Precedence.sequence ≤ m)
    (hf : ∀ rest, (tape (ps ++ rest)).atKeyword "function" = false) :
    StatementReading inBody ps (.expression e .nowhere) where
  notClose := h.begins.atMark rfl
  notEmpty := h.begins.atMark rfl
  reads rest he := by
    obtain ⟨j, hj, hspan, hend⟩ := he.statementEnd
    have hr := Reads.expression (hf rest) (h.begins.atKeyword_return rest)
      (h.sequence hm he.stops) hend
    rw [here_tape, hspan] at hr
    exact ⟨j, hj, hr⟩

theorem StatementReading.declaration {f : Lambda} (h : FunctionReading true ps f) :
    StatementReading inBody ps (.declaration f) where
  notClose rest := by
    obtain ⟨more, rfl⟩ := h.begins
    rfl
  notEmpty rest := by
    obtain ⟨more, rfl⟩ := h.begins
    rfl
  reads rest _ := by
    have hr := h.reads rest
    obtain ⟨more, rfl⟩ := h.begins
    exact ⟨tape rest, .inl rfl, .declaration (beq_self_eq_true _) hr⟩

theorem StatementReading.bareReturn :
    StatementReading true [Piece.keyword "return"] (.return none .nowhere) where
  notClose rest := rfl
  notEmpty rest := rfl
  reads rest he := by
    obtain ⟨j, hj, hspan, hend⟩ := he.statementEnd
    have hstop : (tape rest).atReturnEnd = true := by
      cases rest with
      | nil => cases he
      | cons p rest => obtain rfl | ⟨-, rfl⟩ := he <;> rfl
    have hr := Reads.bareReturn (i := tape (Piece.keyword "return" :: rest))
      (beq_self_eq_true _) hstop hend
    rw [here_tape, hspan] at hr
    exact ⟨j, hj, hr⟩

theorem StatementReading.return (h : Reading ps e m) (hm : Precedence.sequence ≤ m) :
    StatementReading true (Piece.keyword "return" :: ps) (.return (some e) .nowhere) where
  notClose rest := rfl
  notEmpty rest := rfl
  reads rest he := by
    obtain ⟨j, hj, hspan, hend⟩ := he.statementEnd
    have hmore : (tape (ps ++ rest)).atReturnEnd = false := by
      have hclose := h.begins.atMark (c := '}') rfl rest
      have hempty := h.begins.atMark (c := ';') rfl rest
      have hsome : (tape (ps ++ rest)).rest.isEmpty = false := by
        have hb := h.begins
        cases ps with
        | nil => cases hb
        | cons p ps => rfl
      rw [Input.atReturnEnd, hclose, hempty, hsome, atNewline_tape]
      rfl
    have hr := Reads.return (i := tape (Piece.keyword "return" :: (ps ++ rest)))
      (beq_self_eq_true _) hmore (h.sequence hm he.stops) hend
    rw [here_tape, hspan] at hr
    exact ⟨j, hj, hr⟩

/-! ## Statements in a row -/

section
variable {α : Type} {pieces : α → List Piece} {value : α → Statement} {as : List α}

theorem reads_blockStatements
    (h : ∀ a ∈ as, StatementReading true (pieces a) (value a)) (rest : List Piece) :
    Reads .blockStatements (tape (joined ';' (as.map pieces) ++ Piece.mark '}' :: rest))
      (as.map value) (tape rest) := by
  induction as with
  | nil => exact .bodyEnd (i := tape (Piece.mark '}' :: rest)) rfl
  | cons a as ih =>
    have ha := h a List.mem_cons_self
    cases as with
    | nil =>
      obtain ⟨j, hj, hr⟩ := ha.reads (Piece.mark '}' :: rest) (.inr ⟨rfl, rfl⟩)
      obtain rfl | ⟨more, hmore, -⟩ := hj
      · exact .bodyNext (ha.notClose _) (ha.notEmpty _) hr
          (.bodyEnd (i := tape (Piece.mark '}' :: rest)) rfl)
      · cases hmore
    | cons b as =>
      have ih := ih fun x hx => h x (List.mem_cons_of_mem a hx)
      obtain ⟨j, hj, hr⟩ := ha.reads
        (Piece.mark ';' :: (joined ';' ((b :: as).map pieces) ++ Piece.mark '}' :: rest)) (.inl rfl)
      have hnext : Reads .blockStatements j ((b :: as).map value) (tape rest) := by
        obtain rfl | ⟨more, hmore, rfl⟩ := hj
        · exact .bodyEmpty (i := tape (Piece.mark ';' :: _)) rfl ih
        · obtain ⟨-, rfl⟩ := List.cons.inj hmore
          exact ih
      simp only [List.map_cons, joined, List.append_assoc, List.cons_append] at hr hnext ⊢
      exact .bodyNext (ha.notClose _) (ha.notEmpty _) hr hnext

theorem BlockReading.of_statements
    (h : ∀ a ∈ as, StatementReading true (pieces a) (value a)) :
    BlockReading (Piece.mark '{' :: (joined ';' (as.map pieces) ++ [Piece.mark '}']))
      (.block (as.map value) .nowhere) where
  opens rest := rfl
  reads rest := by
    have hr := Reads.block (i := tape (Piece.mark '{' :: _)) rfl (reads_blockStatements h rest)
    rw [here_tape] at hr
    simp only [List.cons_append, List.append_assoc]
    exact hr

theorem readsAll_of_statements
    (h : ∀ a ∈ as, StatementReading false (pieces a) (value a)) :
    ReadsAll (tape (joined ';' (as.map pieces))) (as.map value) := by
  induction as with
  | nil => exact .done rfl
  | cons a as ih =>
    have ha := h a List.mem_cons_self
    cases as with
    | nil =>
      obtain ⟨j, hj, hr⟩ := ha.reads [] rfl
      have he := ha.notEmpty []
      obtain rfl | ⟨more, hmore, -⟩ := hj
      · rw [List.append_nil] at hr he
        exact .next he hr (.done rfl)
      · cases hmore
    | cons b as =>
      have ih := ih fun x hx => h x (List.mem_cons_of_mem a hx)
      obtain ⟨j, hj, hr⟩ :=
        ha.reads (Piece.mark ';' :: joined ';' ((b :: as).map pieces)) (.inl rfl)
      have hnext : ReadsAll j ((b :: as).map value) := by
        obtain rfl | ⟨more, hmore, rfl⟩ := hj
        · exact .empty (i := tape (Piece.mark ';' :: _)) rfl ih
        · obtain ⟨-, rfl⟩ := List.cons.inj hmore
          exact ih
      exact .next (ha.notEmpty _) hr hnext

end

end TemplateExpr
