/-
  How pieces of parameters, of entries of an object and of functions are put together.

  * `Reading.arrow`: the pieces of an arrow function, whose body may be a block.
-/
import TemplateExpr.Proofs.Printing.Operations

namespace TemplateExpr
open Source (Place Span)
open Production

variable {ps qs rest : List Piece} {e k : Expr} {m n : Nat}

theorem takeName?_tape {p : Piece} {text : String} (hp : p.lexeme = .name text)
    (rest : List Piece) :
    (tape (p :: rest)).takeName? = some (⟨text, none, .nowhere⟩, tape rest) := by
  obtain ⟨lexeme, raw, block⟩ := p
  obtain rfl : lexeme = .name text := hp
  rfl

/-! ## Parameters -/

theorem ItemReading.plainParam {p : Piece} {text : String} (hp : p.lexeme = .name text) :
    ItemReading .param ')' [p] (.plain ⟨text, none, .nowhere⟩) where
  notClose rest := by
    change p.lexeme.isMark ')' = false
    rw [hp]
    rfl
  reads c rest _ := .plainParam (takeName?_tape hp _) rfl

theorem ItemReading.defaultParam {p : Piece} {text : String} (hp : p.lexeme = .name text)
    (h : Reading ps e m) (hm : Precedence.assignment ≤ m) :
    ItemReading .param ')' (p :: Piece.operator "=" :: ps)
      (.withDefault ⟨text, none, .nowhere⟩ e .nowhere) where
  notClose rest := by
    change p.lexeme.isMark ')' = false
    rw [hp]
    rfl
  reads c rest hc := by
    have hs : Stops Precedence.assignment (Piece.mark c :: rest) := by
      obtain rfl | rfl := hc <;> exact stops_mark (by decide)
    have he : (Lexeme.operator "=").isOperator "=" = true := beq_self_eq_true _
    have hr := Reads.defaultParam (takeName?_tape hp _)
      (j := tape (Piece.operator "=" :: (ps ++ Piece.mark c :: rest))) he (h.assignment hm hs)
    rw [h.span] at hr
    exact hr

/-! ## Entries of an object -/

theorem ItemReading.shorthand {p : Piece} {text : String} (hp : p.lexeme = .name text) :
    ItemReading .property '}' [p]
      ⟨.identifier ⟨text, none, .nowhere⟩, .identifier ⟨text, none, .nowhere⟩, false, true,
        .nowhere⟩ where
  notClose rest := by
    change p.lexeme.isMark '}' = false
    rw [hp]
    rfl
  reads c rest hc := by
    have hk : plainKey? p.token = some (.identifier ⟨text, none, .nowhere⟩, true) := by
      obtain ⟨lexeme, raw, block⟩ := p
      obtain rfl : lexeme = .name text := hp
      rfl
    refine .shorthand (i := tape (p :: Piece.mark c :: rest)) hk ?_
    obtain rfl | rfl := hc <;> rfl

theorem ItemReading.keyed {p : Piece} {alone : Bool} (hp : plainKey? p.token = some (k, alone))
    (h : Reading ps e m) (hm : Precedence.assignment ≤ m) :
    ItemReading .property '}' (p :: Piece.mark ':' :: ps) ⟨k, e, false, false, .nowhere⟩ where
  notClose rest := by
    obtain ⟨lexeme, raw, block⟩ := p
    cases lexeme with
    | mark c => cases hp
    | _ => rfl
  reads c rest hc := by
    have hs : Stops Precedence.assignment (Piece.mark c :: rest) := by
      obtain rfl | rfl := hc <;> exact stops_mark (by decide)
    have hr := Reads.keyedProperty
      (i := tape (p :: Piece.mark ':' :: (ps ++ Piece.mark c :: rest))) hp rfl
      (h.assignment hm hs)
    rw [here_tape] at hr
    exact hr

theorem ItemReading.computed (hk : Reading qs k n) (hn : Precedence.assignment ≤ n)
    (h : Reading ps e m) (hm : Precedence.assignment ≤ m) :
    ItemReading .property '}' (Piece.mark '[' :: (qs ++ Piece.mark ']' :: Piece.mark ':' :: ps))
      ⟨k, e, true, false, .nowhere⟩ where
  notClose rest := rfl
  reads c rest hc := by
    have hs : Stops Precedence.assignment (Piece.mark c :: rest) := by
      obtain rfl | rfl := hc <;> exact stops_mark (by decide)
    have hg : Stops Precedence.assignment
        (Piece.mark ']' :: Piece.mark ':' :: (ps ++ Piece.mark c :: rest)) :=
      stops_mark (by decide)
    have hr := Reads.computedProperty (i := tape (Piece.mark '[' :: _)) rfl
      (hk.assignment hn hg) rfl rfl (h.assignment hm hs)
    rw [here_tape] at hr
    simp only [List.cons_append, List.append_assoc]
    exact hr

/-! ## Functions -/

/-- The pieces read as the body of a function, between braces. -/
structure BlockReading (ps : List Piece) (b : Body) : Prop where
  opens : ∀ rest, (tape (ps ++ rest)).atMark '{' = true
  reads : ∀ rest, Reads .block (tape (ps ++ rest)) b (tape rest)

/-- The pieces read as a function behind its keyword. -/
structure FunctionReading (declaration : Bool) (ps : List Piece) (f : Lambda) : Prop where
  begins : ∃ more, ps = Piece.keyword "function" :: more
  span : f.span = .nowhere
  reads : ∀ rest, Reads (.function declaration) (tape (ps ++ rest)) f (tape rest)

section
variable {α : Type} {pieces : α → List Piece} {value : α → Param} {as : List α} {b : Body}

theorem FunctionReading.named (declaration : Bool) {p : Piece} {text : String}
    (hp : p.lexeme = .name text)
    (h : ∀ a ∈ as, ItemReading .param ')' (pieces a) (value a)) (hb : BlockReading qs b) :
    FunctionReading declaration (Piece.keyword "function" :: p :: Piece.mark '(' ::
        (joined ',' (as.map pieces) ++ Piece.mark ')' :: qs))
      ⟨some ⟨text, none, .nowhere⟩, as.map value, b, .nowhere⟩ where
  begins := ⟨_, rfl⟩
  span := rfl
  reads rest := by
    have hi := reads_items (by decide) h (qs ++ rest)
    have hk : (Lexeme.keyword "function").isKeyword "function" = true := beq_self_eq_true _
    simp only [List.cons_append, List.append_assoc]
    exact Reads.namedFunction (i := tape (Piece.keyword "function" :: p :: _))
      (j := tape (Piece.mark '(' :: _)) hk (takeName?_tape hp _) rfl hi (hb.reads rest)

theorem FunctionReading.nameless
    (h : ∀ a ∈ as, ItemReading .param ')' (pieces a) (value a)) (hb : BlockReading qs b) :
    FunctionReading false (Piece.keyword "function" :: Piece.mark '(' ::
        (joined ',' (as.map pieces) ++ Piece.mark ')' :: qs))
      ⟨none, as.map value, b, .nowhere⟩ where
  begins := ⟨_, rfl⟩
  span := rfl
  reads rest := by
    have hi := reads_items (by decide) h (qs ++ rest)
    have hk : (Lexeme.keyword "function").isKeyword "function" = true := beq_self_eq_true _
    have hr := Reads.namelessFunction
      (i := tape (Piece.keyword "function" :: Piece.mark '(' :: _)) hk rfl hi (hb.reads rest)
    simp only [List.cons_append, List.append_assoc]
    exact hr

theorem Reading.function {f : Lambda} (h : FunctionReading false ps f) :
    Reading ps (.function f) Precedence.atom where
  level_le := Nat.le_refl _
  span := h.span
  begins := by
    obtain ⟨more, rfl⟩ := h.begins
    have hb : (Piece.keyword "function").lexeme.begins = true ∧
        (Piece.keyword "function").lexeme.beginsOperand = true := by decide
    exact ⟨hb.1, fun _ => hb.2⟩
  noArrow _ := by
    obtain ⟨more, rfl⟩ := h.begins
    exact noArrow_of_begins rfl (by simp [Piece.keyword])
  fits rest := by
    have hr := h.reads rest
    obtain ⟨more, rfl⟩ := h.begins
    exact .functionValue (beq_self_eq_true _) hr

/-- Parameters between parentheses are those of an arrow function if `=>` follows. -/
theorem atArrow_params (h : ∀ a ∈ as, ItemReading .param ')' (pieces a) (value a))
    (block : Bool) (rest : List Piece) :
    atArrow (tape (Piece.mark '(' :: (joined ',' (as.map pieces) ++
      Piece.mark ')' :: Piece.arrow block :: rest))) = true := by
  have hn : Nested ((joined ',' (as.map pieces)).map Piece.token) := by
    obtain ⟨tokens, c, ht, hn, -⟩ := nests_of_reads (reads_items (by decide) h []) id
    simp only [tape, List.map_append, List.map_cons, List.map_nil] at ht
    rwa [(List.append_inj' ht rfl).1]
  have ht : atArrow (tape (Piece.mark '(' :: (joined ',' (as.map pieces) ++
      Piece.mark ')' :: Piece.arrow block :: rest))) =
      closesBeforeArrow 1 ((joined ',' (as.map pieces)).map Piece.token ++
        (Piece.mark ')').token :: (Piece.arrow block :: rest).map Piece.token) := by
    simp [atArrow, tape, Piece.token, Piece.mark]
  rw [ht, hn.closesBeforeArrow (Nat.le_refl 1)]
  exact beq_self_eq_true _

theorem reads_arrowParams (h : ∀ a ∈ as, ItemReading .param ')' (pieces a) (value a))
    (rest : List Piece) :
    Reads .arrowParams (tape (Piece.mark '(' :: (joined ',' (as.map pieces) ++
      Piece.mark ')' :: rest))) (as.map value) (tape rest) :=
  .paramList (i := tape (Piece.mark '(' :: _)) rfl (reads_items (by decide) h rest)

theorem Reading.blockArrow (h : ∀ a ∈ as, ItemReading .param ')' (pieces a) (value a))
    (block : Bool) (hb : BlockReading qs b) :
    Reading (Piece.mark '(' :: (joined ',' (as.map pieces) ++
        Piece.mark ')' :: Piece.arrow block :: qs))
      (.arrow ⟨none, as.map value, b, .nowhere⟩) Precedence.assignment where
  level_le := by decide
  span := rfl
  begins := ⟨rfl, fun _ => rfl⟩
  noArrow hc := absurd hc (by decide)
  fits rest _ := by
    have hr := Reads.blockArrow (atArrow_params h block (qs ++ rest)) (reads_arrowParams h _)
      (beq_self_eq_true _) (hb.reads rest)
    simp only [List.cons_append, List.append_assoc]
    exact hr

theorem Reading.arrow (h : ∀ a ∈ as, ItemReading .param ')' (pieces a) (value a))
    (block : Bool) (he : Reading qs e m) (hm : Precedence.assignment ≤ m)
    (ho : ∀ rest, (tape (qs ++ rest)).atMark '{' = false) :
    Reading (Piece.mark '(' :: (joined ',' (as.map pieces) ++
        Piece.mark ')' :: Piece.arrow block :: qs))
      (.arrow ⟨none, as.map value, .expression e, .nowhere⟩) Precedence.assignment where
  level_le := by decide
  span := rfl
  begins := ⟨rfl, fun _ => rfl⟩
  noArrow hc := absurd hc (by decide)
  fits rest hs := by
    have hr := Reads.arrow (atArrow_params h block (qs ++ rest)) (reads_arrowParams h _)
      (beq_self_eq_true _) (ho rest) (he.assignment hm hs)
    simp only [List.cons_append, List.append_assoc]
    exact hr

end

end TemplateExpr
