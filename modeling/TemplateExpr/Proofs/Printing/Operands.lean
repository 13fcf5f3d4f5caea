/-
  How pieces of operands are put together: atoms, expressions in parentheses, arrays, objects,
  and the members and calls behind an operand. Each lemma says at which level the whole reads
  when its parts read at theirs.
-/
import TemplateExpr.Proofs.Printing.Reading

namespace TemplateExpr
open Source (Place Span)
open Production

/-! ## No arrow function -/

theorem noArrow_of_begins {p : Piece} {ps : List Piece}
    (hp : p.lexeme.isMark '(' = false) (hn : ∀ text, p.lexeme ≠ .name text) :
    NoArrow (p :: ps) := by
  intro rest _
  obtain ⟨lexeme, raw, block⟩ := p
  dsimp only at hp hn
  cases lexeme with
  | name text => exact absurd rfl (hn text)
  | mark c =>
    have hc : c ≠ '(' := by
      rintro rfl
      exact absurd hp (by decide)
    simp [atArrow, tape, Piece.token, hc]
  | _ => rfl

theorem NoArrow.append {ps more : List Piece} {p : Piece} (h : NoArrow ps)
    (hp : p.lexeme.isOperator "=>" = false) : NoArrow (ps ++ p :: more) := by
  intro rest _
  rw [List.append_assoc]
  exact h (p :: more ++ rest) hp

theorem noArrow_name (p : Piece) {text : String} (hp : p.lexeme = .name text) :
    NoArrow [p] := by
  intro rest hr
  obtain ⟨lexeme, raw, block⟩ := p
  obtain rfl : lexeme = .name text := hp
  cases rest with
  | nil => rfl
  | cons q rest => exact hr

/-- Parentheses around nested pieces are no parameters unless `=>` follows. -/
theorem noArrow_group {ps : List Piece} (h : Nested (ps.map Piece.token)) :
    NoArrow (Piece.mark '(' :: ps ++ [Piece.mark ')']) := by
  intro rest hr
  have ht : atArrow (tape (Piece.mark '(' :: ps ++ [Piece.mark ')'] ++ rest)) =
      closesBeforeArrow 1 (ps.map Piece.token ++
        (Piece.mark ')').token :: rest.map Piece.token) := by
    simp [atArrow, tape, Piece.token, Piece.mark]
  rw [ht, h.closesBeforeArrow (Nat.le_refl 1)]
  cases rest with
  | nil => rfl
  | cons q rest => exact hr

/-! ## Atoms and parentheses -/

theorem Reading.atom {p : Piece} {e : Expr} (ha : atom? p.token = some e) :
    Reading [p] e Precedence.atom := by
  obtain ⟨lexeme, raw, block⟩ := p
  have reads : ∀ rest, Reads .primary (tape ([⟨lexeme, raw, block⟩] ++ rest)) e (tape rest) :=
    fun rest => .atom ha
  have hatom := atomOf_of_atom? ha
  unfold Piece.token at hatom
  cases hatom with
  | name =>
    exact ⟨Nat.le_refl _, rfl, ⟨rfl, fun _ => rfl⟩, fun _ => noArrow_name _ rfl, reads⟩
  | _ =>
    exact ⟨Nat.le_refl _, rfl, ⟨rfl, fun _ => rfl⟩,
      fun _ => noArrow_of_begins rfl (by simp), reads⟩

theorem stops_mark {c : Char} {m : Nat} {rest : List Piece} (h : (Lexeme.mark c).grip < m) :
    Stops m (Piece.mark c :: rest) := h

/-- In parentheses, an expression reads at the tightest level. -/
theorem Reading.group {ps : List Piece} {e : Expr} {m : Nat} (h : Reading ps e m)
    (hm : Precedence.sequence ≤ m) :
    Reading (Piece.mark '(' :: ps ++ [Piece.mark ')']) e Precedence.atom where
  level_le := Nat.le_refl _
  span := h.span
  begins := ⟨rfl, fun _ => rfl⟩
  noArrow _ := noArrow_group (h.nested hm)
  fits rest := by
    have hs : Stops Precedence.sequence (Piece.mark ')' :: rest) := stops_mark (by decide)
    simp only [List.cons_append, List.append_assoc]
    exact .parens (i := tape (Piece.mark '(' :: _)) (j := tape (Piece.mark ')' :: rest)) rfl
      (h.sequence hm hs) rfl

/-! ## Series -/

/-- The pieces of items with a mark between each and the next. -/
def joined (c : Char) : List (List Piece) → List Piece
  | [] => []
  | [ps] => ps
  | ps :: qs :: more => ps ++ Piece.mark c :: joined c (qs :: more)

/-- The pieces read as an item of a series that ends with the mark. -/
structure ItemReading {k : Kind} (item : Phrase k) (close : Char) (ps : List Piece)
    (a : k.type) : Prop where
  notClose : ∀ rest, (tape (ps ++ rest)).atMark close = false
  reads : ∀ c rest, c = ',' ∨ c = close →
    Reads item (tape (ps ++ Piece.mark c :: rest)) a (tape (Piece.mark c :: rest))

theorem reads_items {k : Kind} {item : Phrase k} {close : Char} (hc : close ≠ ',')
    {α : Type} {pieces : α → List Piece} {value : α → k.type} {as : List α}
    (h : ∀ a ∈ as, ItemReading item close (pieces a) (value a)) (rest : List Piece) :
    Reads (.items item close) (tape (joined ',' (as.map pieces) ++ Piece.mark close :: rest))
      (as.map value) (tape rest) := by
  have hm : ∀ rest, (tape (Piece.mark close :: rest)).atMark close = true := fun rest => by
    simp [Piece.mark, Lexeme.isMark]
  induction as with
  | nil => exact .itemsClose (hm rest)
  | cons a as ih =>
    have ha := h a List.mem_cons_self
    cases as with
    | nil =>
      have hl : (tape (Piece.mark close :: rest)).atMark ',' = false := by
        simp [Piece.mark, Lexeme.isMark, hc]
      exact .itemsLast (ha.notClose _) (ha.reads close rest (.inr rfl)) hl (hm rest)
    | cons b more =>
      have ih := ih fun x hx => h x (List.mem_cons_of_mem a hx)
      simp only [List.map_cons, joined, List.append_assoc, List.cons_append] at ih ⊢
      exact .itemsMore (ha.notClose _) (ha.reads ',' _ (.inl rfl)) rfl ih

/-- An expression without a comma at its top is an item. -/
theorem Reading.item {ps : List Piece} {e : Expr} {m : Nat} (h : Reading ps e m)
    (hm : Precedence.assignment ≤ m) {close : Char} (hb : (Lexeme.mark close).begins = false)
    (hg : (Lexeme.mark close).grip = 0) : ItemReading .assignment close ps e where
  notClose rest := h.begins.atMark hb rest
  reads c rest hc := by
    refine h.assignment hm (stops_mark ?_)
    obtain rfl | rfl := hc
    · decide
    · rw [hg]
      decide

section
variable {α : Type} {pieces : α → List Piece} {as : List α}

theorem Reading.array {value : α → Expr}
    (h : ∀ a ∈ as, Reading (pieces a) (value a) Precedence.assignment) :
    Reading (Piece.mark '[' :: joined ',' (as.map pieces) ++ [Piece.mark ']'])
      (.array (as.map value) .nowhere) Precedence.atom where
  level_le := Nat.le_refl _
  span := rfl
  begins := ⟨rfl, fun _ => rfl⟩
  noArrow _ := noArrow_of_begins rfl (by simp [Piece.mark])
  fits rest := by
    have item : ∀ a ∈ as, ItemReading .assignment ']' (pieces a) (value a) := fun a ha =>
      (h a ha).item (Nat.le_refl _) rfl rfl
    have hi := reads_items (by decide) item rest
    simp only [List.cons_append, List.append_assoc]
    exact .array (i := tape (Piece.mark '[' :: _)) (j := tape rest) rfl hi

theorem Reading.object {value : α → Property}
    (h : ∀ a ∈ as, ItemReading .property '}' (pieces a) (value a)) :
    Reading (Piece.mark '{' :: joined ',' (as.map pieces) ++ [Piece.mark '}'])
      (.object (as.map value) .nowhere) Precedence.atom where
  level_le := Nat.le_refl _
  span := rfl
  begins := ⟨rfl, fun _ => rfl⟩
  noArrow _ := noArrow_of_begins rfl (by simp [Piece.mark])
  fits rest := by
    have hi := reads_items (by decide) h rest
    simp only [List.cons_append, List.append_assoc]
    exact .object (i := tape (Piece.mark '{' :: _)) (j := tape rest) rfl hi

end

/-! ## Members and calls -/

section
variable {ps qs : List Piece} {o e : Expr} {m n : Nat}

/-- A link behind an operand makes another operand. -/
theorem Reading.link {p : Piece} (ho : Reading ps o m) (hm : Precedence.call ≤ m)
    (hp : p.lexeme.isOperator "=>" = false) (he : e.span = .nowhere)
    (hl : ∀ rest, Reads (.link o) (tape (p :: qs ++ rest)) e (tape rest)) :
    Reading (ps ++ p :: qs) e Precedence.call where
  level_le := by decide
  span := he
  begins := (ho.begins.mono hm).append _
  noArrow hc := (ho.noArrow (Nat.le_trans hc hm)).append hp
  fits rest r j hr := by
    rw [List.append_assoc]
    exact ho.links hm (.linksMore (hl rest) hr)

theorem reads_memberName {p : Piece} {text : String}
    (hp : p.lexeme = .name text ∨ p.lexeme = .keyword text) (rest : List Piece) :
    Reads .memberName (tape (p :: rest)) (.identifier ⟨text, none, .nowhere⟩) (tape rest) :=
  .memberName (i := tape (p :: rest)) (hp.imp (congrArg some) (congrArg some))

theorem Reading.named {p : Piece} {text : String} (ho : Reading ps o m)
    (hm : Precedence.call ≤ m) (hp : p.lexeme = .name text ∨ p.lexeme = .keyword text) :
    Reading (ps ++ [Piece.mark '.', p])
      (.member o (.identifier ⟨text, none, .nowhere⟩) false false .nowhere) Precedence.call := by
  refine ho.link hm rfl rfl fun rest => ?_
  have h := Reads.named (i := tape (Piece.mark '.' :: p :: rest)) (o := o) rfl
    (reads_memberName hp rest)
  rw [ho.span] at h
  exact h

theorem Reading.namedOptional {p : Piece} {text : String} (ho : Reading ps o m)
    (hm : Precedence.call ≤ m) (hp : p.lexeme = .name text ∨ p.lexeme = .keyword text) :
    Reading (ps ++ [Piece.operator "?.", p])
      (.member o (.identifier ⟨text, none, .nowhere⟩) false true .nowhere) Precedence.call := by
  refine ho.link hm rfl rfl fun rest => ?_
  have h := Reads.namedOptional (i := tape (Piece.operator "?." :: p :: rest)) (o := o) rfl
    (reads_memberName hp rest)
  rw [ho.span] at h
  exact h

theorem Reading.computed (ho : Reading ps o m) (hm : Precedence.call ≤ m)
    (h : Reading qs e n) (hn : Precedence.sequence ≤ n) :
    Reading (ps ++ Piece.mark '[' :: (qs ++ [Piece.mark ']'])) (.member o e true false .nowhere)
      Precedence.call := by
  refine ho.link hm rfl rfl fun rest => ?_
  have hs : Stops Precedence.sequence (Piece.mark ']' :: rest) := stops_mark (by decide)
  have h := Reads.computed (i := tape (Piece.mark '[' :: (qs ++ Piece.mark ']' :: rest)))
    (j := tape (Piece.mark ']' :: rest)) (o := o) rfl (h.sequence hn hs) rfl
  rw [ho.span] at h
  simp only [List.cons_append, List.append_assoc]
  exact h

theorem Reading.computedOptional (ho : Reading ps o m) (hm : Precedence.call ≤ m)
    (h : Reading qs e n) (hn : Precedence.sequence ≤ n) :
    Reading (ps ++ Piece.operator "?." :: Piece.mark '[' :: (qs ++ [Piece.mark ']']))
      (.member o e true true .nowhere) Precedence.call := by
  refine ho.link hm rfl rfl fun rest => ?_
  have hs : Stops Precedence.sequence (Piece.mark ']' :: rest) := stops_mark (by decide)
  have h := Reads.computedOptional
    (i := tape (Piece.operator "?." :: Piece.mark '[' :: (qs ++ Piece.mark ']' :: rest)))
    (j := tape (Piece.mark ']' :: rest)) (o := o) rfl rfl (h.sequence hn hs) rfl
  rw [ho.span] at h
  simp only [List.cons_append, List.append_assoc]
  exact h

variable {α : Type} {pieces : α → List Piece} {value : α → Expr} {as : List α}

theorem reads_arguments
    (h : ∀ a ∈ as, Reading (pieces a) (value a) Precedence.assignment) (rest : List Piece) :
    Reads (.items .assignment ')') (tape (joined ',' (as.map pieces) ++ Piece.mark ')' :: rest))
      (as.map value) (tape rest) := by
  have item : ∀ a ∈ as, ItemReading .assignment ')' (pieces a) (value a) := fun a ha =>
    (h a ha).item (Nat.le_refl _) rfl rfl
  exact reads_items (by decide) item rest

theorem Reading.call (ho : Reading ps o m) (hm : Precedence.call ≤ m)
    (h : ∀ a ∈ as, Reading (pieces a) (value a) Precedence.assignment) :
    Reading (ps ++ Piece.mark '(' :: (joined ',' (as.map pieces) ++ [Piece.mark ')']))
      (.call o (as.map value) false .nowhere) Precedence.call := by
  refine ho.link hm rfl rfl fun rest => ?_
  have h := Reads.call (i := tape (Piece.mark '(' :: _)) (j := tape rest) (o := o) rfl
    (reads_arguments h rest)
  rw [ho.span] at h
  simp only [List.cons_append, List.append_assoc]
  exact h

theorem Reading.callOptional (ho : Reading ps o m) (hm : Precedence.call ≤ m)
    (h : ∀ a ∈ as, Reading (pieces a) (value a) Precedence.assignment) :
    Reading (ps ++ Piece.operator "?." :: Piece.mark '(' ::
        (joined ',' (as.map pieces) ++ [Piece.mark ')']))
      (.call o (as.map value) true .nowhere) Precedence.call := by
  refine ho.link hm rfl rfl fun rest => ?_
  have h := Reads.callOptional (i := tape (Piece.operator "?." :: Piece.mark '(' :: _))
    (j := tape rest) (o := o) rfl rfl (reads_arguments h rest)
  rw [ho.span] at h
  simp only [List.cons_append, List.append_assoc]
  exact h

end

end TemplateExpr
