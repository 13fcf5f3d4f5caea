/-
  How pieces of operations are put together: updates, prefix operators, powers, the binary
  levels, conditionals, assignments and sequences, each at its own level of `Precedence`.

  * `Reading.binary`: an operation of a binary level reads at that level when its left operand
    reads at the level and its right operand at the next tighter one.
-/
import TemplateExpr.Proofs.Printing.Operands

namespace TemplateExpr
open Source (Place Span)
open Operator (Level)
open Production

variable {ps qs rest : List Piece} {e l r : Expr} {m n : Nat} {op : String}

/-! ## In front of and behind one operand -/

theorem operatorOf?_tape {operators : List String} (ho : op ∈ operators) :
    operatorOf? operators (tape (Piece.operator op :: rest)) = some op :=
  operatorOf?_eq_some_iff.2 ⟨rfl, ho⟩

theorem Reading.trailingUpdate (h : Reading ps e m) (hm : Precedence.call ≤ m)
    (ht : e.isTarget = true) (ho : op ∈ Operator.update) :
    Reading (ps ++ [Piece.operator op]) (.update op false e .nowhere) Precedence.postfixed where
  level_le := by decide
  span := rfl
  begins := (h.begins.mono (Nat.le_of_succ_le hm)).append _
  noArrow _ := by
    refine (h.noArrow (Nat.le_trans (by decide) hm)).append ?_
    revert op
    decide
  fits rest _ := by
    have hs : Stops Precedence.call (Piece.operator op :: rest) := by
      change (Lexeme.operator op).grip < Precedence.call
      rw [grip_of_update ho]
      decide
    have hr := Reads.trailingUpdate (h.links hm (.linksNone hs.atLink)) (operatorOf?_tape ho) rfl ht
    rw [h.span] at hr
    rw [List.append_assoc]
    exact hr

theorem Reading.leadingUpdate (h : Reading ps e m) (hm : Precedence.unary ≤ m)
    (ht : e.isTarget = true) (ho : op ∈ Operator.update) :
    Reading (Piece.operator op :: ps) (.update op true e .nowhere) Precedence.unary where
  level_le := by decide
  span := rfl
  begins := by
    refine ⟨?_, fun h => absurd h (by decide)⟩
    revert op
    decide
  noArrow _ := noArrow_of_begins rfl (by simp [Piece.operator])
  fits rest hs := by
    have hr := Reads.leadingUpdate (i := tape (Piece.operator op :: (ps ++ rest)))
      (operatorOf?_tape ho) (h.prefixed hm hs) ht
    rw [here_tape] at hr
    exact hr

theorem unaryOf?_tape (ho : op ∈ Operator.unary ∨ op ∈ Operator.unaryWords) :
    operatorOf? Operator.update (tape (Piece.symbol op :: rest)) = none ∧
      unaryOf? (tape (Piece.symbol op :: rest)) = some op := by
  have symbols : ∀ op ∈ Operator.unary, Symbol.keywords.contains op = false ∧
      Operator.update.contains op = false := by decide
  have words : ∀ op ∈ Operator.unaryWords, Symbol.keywords.contains op = true := by
    decide
  obtain ho | ho := ho
  · obtain ⟨hk, hu⟩ := symbols op ho
    have hp : Piece.symbol op = .operator op := by rw [Piece.symbol, hk]; rfl
    rw [hp]
    refine ⟨?_, unaryOf?_eq_some_iff.2 (.inl ⟨rfl, ho⟩)⟩
    simpa [operatorOf?, Piece.operator] using hu
  · have hp : Piece.symbol op = .keyword op := by rw [Piece.symbol, words op ho]; rfl
    rw [hp]
    exact ⟨rfl, unaryOf?_eq_some_iff.2 (.inr ⟨rfl, ho⟩)⟩

theorem Reading.unary (h : Reading ps e m) (hm : Precedence.unary ≤ m)
    (ho : op ∈ Operator.unary ∨ op ∈ Operator.unaryWords) :
    Reading (Piece.symbol op :: ps) (.unary op e .nowhere) Precedence.unary where
  level_le := by decide
  span := rfl
  begins := by
    refine ⟨?_, fun h => absurd h (by decide)⟩
    have table : ∀ op ∈ Operator.unary ++ Operator.unaryWords,
        (Piece.symbol op).lexeme.begins = true := by decide
    exact table op (List.mem_append.2 ho)
  noArrow _ := by
    unfold Piece.symbol
    split <;> exact noArrow_of_begins rfl (by simp [Piece.operator, Piece.keyword])
  fits rest hs := by
    obtain ⟨hu, hp⟩ := @unaryOf?_tape (ps ++ rest) op ho
    have hr := Reads.unary (i := tape (Piece.symbol op :: (ps ++ rest))) hu hp
      (h.prefixed hm hs)
    rw [here_tape] at hr
    exact hr

/-! ## Between two operands -/

theorem Reading.binaryPower (hl : Reading ps l m) (hm : Precedence.unary ≤ m)
    (hr : Reading qs r n) (hn : Precedence.power ≤ n) :
    Reading (ps ++ Piece.operator Operator.power :: qs) (.binary Operator.power l r .nowhere)
      Precedence.power where
  level_le := by decide
  span := rfl
  begins := (hl.begins.mono (Nat.le_trans (by decide) hm)).append _
  noArrow _ := (hl.noArrow (Nat.le_trans (by decide) hm)).append (by decide)
  fits rest hs := by
    have hg : Stops Precedence.unary (Piece.operator Operator.power :: (qs ++ rest)) := by
      change (Lexeme.operator Operator.power).grip < Precedence.unary
      decide
    have h := Reads.power (hl.prefixed hm hg) (by simp [Piece.operator, Lexeme.isOperator])
      (hr.power hn hs)
    rw [hl.span, hr.span] at h
    rw [List.append_assoc]
    exact h

theorem span_binaryNode (level : Level) (op : String) (l r : Expr) :
    (binaryNode level op l r).span = l.span.to r.span := by
  unfold binaryNode
  cases level.logical <;> rfl

/-- An operation of a level that groups to the left. -/
theorem Reading.binary {d : Nat} {level : Level} {tighter : List Level}
    (hd : Operator.levels.drop d = level :: tighter) (ho : op ∈ level.operators)
    (hl : Reading ps l m) (hm : 4 + d ≤ m) (hr : Reading qs r n) (hn : 4 + d + 1 ≤ n) :
    Reading (ps ++ Piece.symbol op :: qs) (binaryNode level op l r) (4 + d) where
  level_le := Nat.le_trans hm hl.level_le
  span := by rw [span_binaryNode, hl.span, hr.span, nowhere_to]
  begins := (hl.begins.mono hm).append _
  noArrow hc := by
    refine (hl.noArrow (Nat.le_trans hc hm)).append ?_
    have table : ∀ level ∈ Operator.levels, ∀ op ∈ level.operators,
        (Piece.symbol op).lexeme.isOperator "=>" = false := by decide
    refine table level (List.mem_of_mem_drop (i := d) ?_) op ho
    rw [hd]
    exact List.mem_cons_self
  fits := by
    have hlen := lt_length_of_drop hd
    have ht : tighter = Operator.levels.drop (d + 1) := by
      rw [← List.drop_drop, hd]
      rfl
    have climbs : Climbs (ps ++ Piece.symbol op :: qs) (binaryNode level op l r) d := by
      intro level' tighter' hd' rest a j hs hc
      obtain ⟨rfl, rfl⟩ := List.cons.inj (hd.symm.trans hd')
      obtain ⟨hgo, hgk⟩ := grip_of_level hd ho
      have hg : Stops (4 + d + 1) (Piece.symbol op :: (qs ++ rest)) := by
        change (Piece.symbol op).lexeme.grip < 4 + d + 1
        obtain h | h := Piece.lexeme_symbol op <;> rw [h] <;> omega
      have hb : binaryOf? level.operators (tape (Piece.symbol op :: (qs ++ rest))) = some op :=
        binaryOf?_eq_some_iff.2 ⟨(Piece.lexeme_symbol op).imp (congrArg some) (congrArg some), ho⟩
      have hright : Reads (.ladder tighter) (tape (qs ++ rest)) r (tape rest) := by
        rw [ht]
        exact hr.ladder hn hlen hs
      rw [List.append_assoc]
      exact hl.climbs hm hlen level tighter hd _ a j hg (.climbMore hb hright hc)
    match d with
    | 0 | 1 | 2 | 3 | 4 | 5 | 6 | 7 | 8 | 9 => exact climbs
    | d + 10 => exact absurd hlen (by omega)

theorem Reading.chosen {ts cs as : List Piece} {t c a : Expr} {k : Nat}
    (ht : Reading ts t k) (hk : Precedence.loosestBinary ≤ k)
    (hc : Reading cs c m) (hm : Precedence.assignment ≤ m)
    (ha : Reading as a n) (hn : Precedence.assignment ≤ n) :
    Reading (ts ++ Piece.operator "?" :: (cs ++ Piece.mark ':' :: as))
      (.conditional t c a .nowhere) Precedence.conditional where
  level_le := by decide
  span := rfl
  begins := (ht.begins.mono (Nat.le_of_succ_le hk)).append _
  noArrow _ := (ht.noArrow (Nat.le_of_succ_le hk)).append (by decide)
  fits rest hs := by
    have hg : Stops Precedence.loosestBinary
        (Piece.operator "?" :: (cs ++ Piece.mark ':' :: (as ++ rest))) := by
      change (Lexeme.operator "?").grip < Precedence.loosestBinary
      decide
    have htest := ht.ladder (d := 0) hk (by decide) hg
    have hthen : Reads .assignment (tape (cs ++ Piece.mark ':' :: (as ++ rest))) c
        (tape (Piece.mark ':' :: (as ++ rest))) := hc.assignment hm (stops_mark (by decide))
    have hq : (Lexeme.operator "?").isOperator "?" = true := beq_self_eq_true _
    have h := Reads.conditional htest hq hthen rfl (ha.assignment hn hs)
    rw [ht.span, ha.span] at h
    simp only [List.cons_append, List.append_assoc]
    exact h

theorem Reading.assigned (hl : Reading ps l m) (hm : Precedence.loosestBinary ≤ m)
    (ht : l.isTarget = true) (ho : op ∈ Operator.assignment) (hr : Reading qs r n)
    (hn : Precedence.assignment ≤ n) :
    Reading (ps ++ Piece.operator op :: qs) (.assignment op l r .nowhere)
      Precedence.assignment where
  level_le := by decide
  span := rfl
  begins := (hl.begins.mono (Nat.le_trans (by decide) hm)).append _
  noArrow hc := absurd hc (by decide)
  fits rest hs := by
    have hg : Stops Precedence.conditional (Piece.operator op :: (qs ++ rest)) := by
      change (Lexeme.operator op).grip < Precedence.conditional
      rw [grip_of_assignment ho]
      decide
    have hna : (tape (Piece.operator op :: (qs ++ rest))).atOperator "=>" = false := by
      have table : ∀ op ∈ Operator.assignment,
          (Lexeme.operator op).isOperator "=>" = false := by decide
      exact table op ho
    have h := Reads.assignment (hl.noArrow (Nat.le_of_succ_le hm) _ hna)
      (hl.conditional hm hg) (operatorOf?_tape ho) ht (hr.assignment hn hs)
    rw [hl.span, hr.span] at h
    rw [List.append_assoc]
    exact h

/-! ## Sequences -/

section
variable {α : Type} {pieces : α → List Piece} {value : α → Expr} {as : List α} {a b : α}

theorem reads_others (h : ∀ a ∈ as, Reading (pieces a) (value a) Precedence.assignment)
    (hs : Stops Precedence.sequence rest) :
    Reads .others (tape (as.flatMap (fun a => Piece.mark ',' :: pieces a) ++ rest))
      (as.map value) (tape rest) := by
  induction as with
  | nil => exact .othersNone hs.comma
  | cons a as ih =>
    have ih := ih fun x hx => h x (List.mem_cons_of_mem a hx)
    have hg : Stops Precedence.assignment
        (as.flatMap (fun a => Piece.mark ',' :: pieces a) ++ rest) := by
      cases as with
      | nil => exact hs.mono (by decide)
      | cons b as => exact stops_mark (by decide)
    have ha := (h a List.mem_cons_self).assignment (Nat.le_refl _) hg
    rw [List.flatMap_cons, List.append_assoc]
    exact .othersMore (i := tape (Piece.mark ',' :: _)) rfl ha ih

theorem joined_cons (c : Char) (ps : List Piece) (qs : List (List Piece)) :
    joined c (ps :: qs) = ps ++ qs.flatMap (Piece.mark c :: ·) := by
  induction qs generalizing ps with
  | nil => simp [joined]
  | cons q qs ih => simp [joined, ih]

theorem Reading.several
    (h : ∀ x ∈ a :: b :: as, Reading (pieces x) (value x) Precedence.assignment) :
    Reading (joined ',' ((a :: b :: as).map pieces))
      (.sequence ((a :: b :: as).map value) .nowhere) Precedence.sequence where
  level_le := by decide
  span := rfl
  begins := by
    rw [List.map_cons, joined_cons]
    exact ((h a List.mem_cons_self).begins.mono (by decide)).append _
  noArrow hc := absurd hc (by decide)
  fits rest hs := by
    have hmore : ∀ x ∈ b :: as, Reading (pieces x) (value x) Precedence.assignment :=
      fun x hx => h x (List.mem_cons_of_mem a hx)
    have ho := reads_others hmore hs
    have hg : Stops Precedence.assignment
        ((b :: as).flatMap (fun a => Piece.mark ',' :: pieces a) ++ rest) :=
      stops_mark (by decide)
    have hr := Reads.several ((h a List.mem_cons_self).assignment (Nat.le_refl _) hg) ho
    rw [(h a List.mem_cons_self).span, spanFrom_tape] at hr
    rw [List.map_cons, joined_cons, List.append_assoc, List.flatMap_map]
    exact hr

end

end TemplateExpr
