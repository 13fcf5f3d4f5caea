/-
  A text whose line feeds each become a carriage return and a line feed: what stands at its
  front is read the same, and in lines and columns the two characters are one step. The one
  exception is a text literal that goes over a line feed. Only a backslash before it lets a
  literal do so, and that backslash takes the carriage return alone: at the line feed the literal
  has no end.

  * `Level.past_crlf`: positions.
  * `Trivia.ofText_crlf`: blanks and comments.
  * `Literal.readBody_crlf`: text literals.
  * `Lexeme.read_crlf`: any lexeme.
-/
import TemplateExpr.Proofs.Token.Characters
import TemplateExpr.Proofs.Token.Lines
import TemplateExpr.Proofs.Token.Tiling

namespace TemplateExpr
open Source Text

/-! ## Texts -/

section
variable {cs : List Char} {c : Char} {n : Nat}

/-- The text with a carriage return before each of its line feeds. -/
def Text.crlf (cs : List Char) : List Char :=
  cs.flatMap fun c => if c = '\n' then ['\r', '\n'] else [c]

@[simp] theorem Text.crlf_nil : crlf [] = [] := rfl

@[simp] theorem Text.crlf_newline (cs : List Char) :
    crlf ('\n' :: cs) = '\r' :: '\n' :: crlf cs := rfl

@[simp] theorem Text.crlf_cons (h : c ≠ '\n') (cs : List Char) : crlf (c :: cs) = c :: crlf cs := by
  rw [crlf, List.flatMap_cons, if_neg h]
  rfl

@[simp] theorem Text.crlf_append (cs ds : List Char) : crlf (cs ++ ds) = crlf cs ++ crlf ds :=
  List.flatMap_append

theorem Text.crlf_of_not_mem (h : '\n' ∉ cs) : crlf cs = cs := by
  induction cs with
  | nil => rfl
  | cons c cs ih =>
    rw [List.mem_cons, not_or] at h
    rw [crlf_cons (Ne.symm h.1), ih h.2]

theorem Text.take_drop_crlf (cs : List Char) (n : Nat) :
    (crlf cs).take (crlf (cs.take n)).length = crlf (cs.take n) ∧
      (crlf cs).drop (crlf (cs.take n)).length = crlf (cs.drop n) := by
  have happend := crlf_append (cs.take n) (cs.drop n)
  rw [List.take_append_drop] at happend
  rw [happend]
  exact ⟨List.take_left, List.drop_left⟩

/-- Characters without line feed are at the same place in both texts. -/
theorem Text.take_drop_crlf_of_not_mem (hn : n ≤ cs.length) (h : '\n' ∉ cs.take n) :
    (crlf cs).take n = cs.take n ∧ (crlf cs).drop n = crlf (cs.drop n) := by
  have hsplit := take_drop_crlf cs n
  rwa [crlf_of_not_mem h, List.length_take_of_le hn] at hsplit

theorem Text.head?_crlf (cs : List Char) {p : Char → Bool} (hp : p '\n' = p '\r') :
    (crlf cs).head?.any p = cs.head?.any p := by
  cases cs with
  | nil => rfl
  | cons c cs =>
    by_cases hc : c = '\n'
    · rw [hc, crlf_newline]
      exact hp.symm
    · rw [crlf_cons hc]
      rfl

theorem Text.takeWhile_crlf {p : Char → Bool} (hn : p '\n' = false) (hr : p '\r' = false)
    (cs : List Char) : (crlf cs).takeWhile p = cs.takeWhile p := by
  induction cs with
  | nil => rfl
  | cons c cs ih =>
    by_cases hc : c = '\n'
    · rw [hc, crlf_newline, List.takeWhile_cons_of_neg (by simp [hr]),
        List.takeWhile_cons_of_neg (by simp [hn])]
    · rw [crlf_cons hc, List.takeWhile_cons, List.takeWhile_cons, ih]

theorem Text.takeWhile_line {line : List Char} (h : '\n' ∉ line) (cs : List Char) :
    (line ++ cs).takeWhile (· != '\n') = line ++ cs.takeWhile (· != '\n') :=
  List.takeWhile_append_of_pos fun _ hc => bne_iff_ne.2 (ne_of_mem_of_not_mem hc h)

theorem Text.any_crlf_isNewline (cs : List Char) : (crlf cs).any isNewline = cs.any isNewline := by
  induction cs with
  | nil => rfl
  | cons c cs ih =>
    by_cases hc : c = '\n'
    · rw [hc]
      rfl
    · rw [crlf_cons hc, List.any_cons, List.any_cons, ih]

end

/-! ## Positions -/

namespace Source

/-- The cursors are at the same position, and no line end is halfway read. -/
structure Cursor.Level (a b : Cursor) : Prop where
  position : a.place.position = b.place.position
  left : a.previous ≠ '\r'
  right : b.previous ≠ '\r'

/-- The position is before the other one. -/
def Position.Before (p q : Position) : Prop :=
  p.line < q.line ∨ p.line = q.line ∧ p.column < q.column

variable {a b : Cursor} {cs : List Char} {previous c : Char}

theorem Position.after_newline (h : previous ≠ '\r') (p : Position) :
    p.after previous '\n' = ⟨p.line + 1, 0⟩ :=
  (if_neg fun hc => h hc.2).trans (if_pos rfl)

theorem Position.after_return (p : Position) : p.after previous '\r' = ⟨p.line + 1, 0⟩ :=
  (if_neg fun hc => absurd hc.1 (by decide)).trans (if_pos rfl)

theorem Position.before_after (h : previous ≠ '\r') (p : Position) :
    p.Before (p.after previous c) := by
  unfold after
  split
  · next hc => exact absurd hc.2 h
  · split
    · exact .inl (Nat.lt_succ_self _)
    · exact .inr ⟨rfl, Nat.lt_succ_self _⟩

theorem Position.Before.trans {p q r : Position} (h : p.Before q) (h' : q.Before r) :
    p.Before r := by
  unfold Before at *
  omega

theorem Position.Before.ne {p q : Position} (h : p.Before q) : p ≠ q := by
  rintro rfl
  unfold Before at h
  omega

namespace Cursor

/-- Every character is a step forward, if none of them is a carriage return. -/
theorem before_past (h : b.previous ≠ '\r') (hcs : '\r' ∉ cs) (hne : cs ≠ []) :
    b.place.position.Before (b.past cs).place.position := by
  induction cs generalizing b with
  | nil => exact absurd rfl hne
  | cons c cs ih =>
    rw [List.mem_cons, not_or] at hcs
    have hstep : b.place.position.Before (b.step c).place.position := Position.before_after h _
    by_cases hnil : cs = []
    · rw [hnil]
      exact hstep
    · exact hstep.trans (ih (b := b.step c) (Ne.symm hcs.1) hcs.2 hnil)

theorem Level.step (h : a.Level b) (hn : c ≠ '\n') (hr : c ≠ '\r') :
    (a.step c).Level (b.step c) := by
  refine ⟨?_, hr, hr⟩
  change a.place.position.after a.previous c = b.place.position.after b.previous c
  rw [h.position]
  simp only [Position.after, hn, false_and, if_false]

/-- A carriage return and a line feed are one line end, as the line feed is by itself. -/
theorem Level.past_crlf (h : a.Level b) (hcs : '\r' ∉ cs) :
    (a.past (crlf cs)).Level (b.past cs) := by
  induction cs generalizing a b with
  | nil => exact h
  | cons c cs ih =>
    rw [List.mem_cons, not_or] at hcs
    by_cases hc : c = '\n'
    · rw [hc, crlf_newline]
      refine ih (a := (a.step '\r').step '\n') ⟨?_, by simp [Cursor.step], by simp [Cursor.step]⟩ hcs.2
      change ((a.place.position.after a.previous '\r').after '\r' '\n') = _
      have hpair : ∀ p : Position, p.after '\r' '\n' = p := fun p => if_pos ⟨rfl, rfl⟩
      rw [hpair, Position.after_return, h.position]
      exact (Position.after_newline h.right _).symm
    · rw [crlf_cons hc]
      exact ih (h.step hc (Ne.symm hcs.1)) hcs.2

theorem Level.past_line (h : a.Level b) (hn : '\n' ∉ cs) (hr : '\r' ∉ cs) :
    (a.past cs).Level (b.past cs) := by
  have hlevel := h.past_crlf hr
  rwa [crlf_of_not_mem hn] at hlevel

/-- The carriage return alone leads to the same position. -/
theorem Level.step_return (h : a.Level b) :
    (a.step '\r').place.position = (b.step '\n').place.position := by
  change a.place.position.after a.previous '\r' = b.place.position.after b.previous '\n'
  rw [Position.after_return, Position.after_newline h.right, h.position]

end Cursor

end Source

/-! ## Trivia -/

namespace Trivia
variable {cs : List Char}

theorem closing?_cons {c : Char} (h : ¬(c = '*' ∧ cs.head?.any (· == '/') = true)) :
    closing? (c :: cs) = (closing? cs).map (· + 1) := by
  rw [closing?]
  rintro ds rfl rfl
  exact h ⟨rfl, rfl⟩

theorem closing?_crlf (cs : List Char) :
    closing? (crlf cs) = (closing? cs).map fun n => (crlf (cs.take n)).length := by
  induction cs using closing?.induct with
  | case1 => rfl
  | case2 cs => rfl
  | case3 c cs hc ih =>
    have hnot : ¬(c = '*' ∧ cs.head?.any (· == '/') = true) := by
      rintro ⟨rfl, hd⟩
      cases cs with
      | nil => cases hd
      | cons d ds => exact hc ds rfl (congrArg (· :: ds) (beq_iff_eq.1 hd))
    have hlen : ∀ n, (crlf ((c :: cs).take (n + 1))).length =
        (crlf [c]).length + (crlf (cs.take n)).length := fun n => by
      rw [List.take_succ_cons, ← List.singleton_append, crlf_append, List.length_append]
    rw [closing?_cons hnot, Option.map_map]
    by_cases hn : c = '\n'
    · have hfeed : ¬(('\n' : Char) = '*' ∧ (crlf cs).head?.any (· == '/') = true) :=
        fun h => absurd h.1 (by decide)
      have hreturn : ¬(('\r' : Char) = '*' ∧ ('\n' :: crlf cs).head?.any (· == '/') = true) :=
        fun h => absurd h.1 (by decide)
      subst hn
      rw [crlf_newline, closing?_cons hreturn, closing?_cons hfeed, ih, Option.map_map,
        Option.map_map]
      refine congrArg (Option.map · _) (funext fun n => ?_)
      rw [Function.comp_apply, Function.comp_apply, Function.comp_apply, hlen]
      exact Nat.add_comm _ 2
    · rw [crlf_cons hn, closing?_cons (by rwa [head?_crlf cs rfl]), ih, Option.map_map]
      refine congrArg (Option.map · _) (funext fun n => ?_)
      rw [Function.comp_apply, Function.comp_apply, hlen, crlf_cons hn]
      exact Nat.add_comm _ 1

/-- The trivia at the front is the same, but for its length. -/
theorem ofText_crlf (cs : List Char) :
    ofText (crlf cs) = { ofText cs with length := (crlf (cs.take (ofText cs).length)).length } := by
  induction cs using ofText.induct with
  | case1 => rw [crlf_nil, ofText]; rfl
  | case2 cs ih =>
    have hline : lineLength (crlf cs) = lineLength cs :=
      congrArg List.length (takeWhile_crlf rfl rfl cs)
    have hno : '\n' ∉ cs.take (lineLength cs) := fun hm => by
      have := of_mem_take_takeWhile hm
      cases this
    obtain ⟨-, hdrop⟩ := take_drop_crlf_of_not_mem (lineLength_le cs) hno
    rw [crlf_cons (by decide), crlf_cons (by decide), ofText, ofText, hline, hdrop, ih]
    dsimp only [behind]
    rw [take_behind, crlf_cons (by decide), crlf_cons (by decide), crlf_append,
      crlf_of_not_mem hno]
    simp only [List.length_cons, List.length_append, List.length_take_of_le (lineLength_le cs)]
    congr 1
    omega
  | case3 cs n hn ih =>
    obtain ⟨htake, hdrop⟩ := take_drop_crlf cs n
    have hclose : closing? (crlf cs) = some (crlf (cs.take n)).length := by
      rw [closing?_crlf, hn]
      rfl
    rw [crlf_cons (by decide), crlf_cons (by decide), ofText, ofText, hclose, hn]
    dsimp only
    rw [hdrop, htake, any_crlf_isNewline, ih]
    dsimp only [behind]
    rw [take_behind, crlf_cons (by decide), crlf_cons (by decide), crlf_append]
    simp only [List.length_cons, List.length_append]
    congr 1
    omega
  | case4 cs hn =>
    have hclose : closing? (crlf cs) = none := by
      rw [closing?_crlf, hn]
      rfl
    rw [crlf_cons (by decide), crlf_cons (by decide), ofText, ofText, hclose, hn]
    rfl
  | case5 c cs h1 h2 hc ih =>
    rw [ofText_cons_of_isSpace hc]
    by_cases hn : c = '\n'
    · subst hn
      rw [crlf_newline, ofText_cons_of_isSpace rfl, ofText_cons_of_isSpace rfl, ih]
      dsimp only [behind]
      rw [Nat.add_comm 1 (ofText cs).length, List.take_succ_cons, crlf_newline]
      simp only [List.length_cons]
      congr 1
      omega
    · rw [crlf_cons hn, ofText_cons_of_isSpace hc, ih]
      dsimp only [behind]
      rw [Nat.add_comm 1 (ofText cs).length, List.take_succ_cons, crlf_cons hn]
      simp only [List.length_cons]
      congr 1
      omega
  | case6 c cs h1 h2 hc =>
    have hempty : ofText (c :: cs) = empty := by
      rw [ofText, if_neg hc]
      all_goals assumption
    have hbegins : begins (c :: cs) = false := not_begins_of_length (by rw [hempty]; rfl)
      (by rw [hempty]; rfl)
    have hn : c ≠ '\n' := by
      rintro rfl
      exact hc rfl
    have hbegins' : begins (c :: crlf cs) = false := by
      rw [begins, head?_crlf cs rfl]
      exact hbegins
    rw [crlf_cons hn, ofText_of_not_begins hbegins', hempty]
    rfl

theorem take_ofText_crlf (cs : List Char) :
    (crlf cs).take (ofText (crlf cs)).length = crlf (cs.take (ofText cs).length) ∧
      (crlf cs).drop (ofText (crlf cs)).length = crlf (cs.drop (ofText cs).length) := by
  rw [ofText_crlf]
  exact take_drop_crlf cs (ofText cs).length

/-- A comment without end is what follows the trivia before it. -/
theorem drop_of_openComment (h : (ofText cs).openComment = true) :
    ∃ ds, cs.drop (ofText cs).length = '/' :: '*' :: ds := by
  induction cs using ofText.induct with
  | case1 => rw [ofText] at h; cases h
  | case2 cs ih =>
    rw [ofText] at h ⊢
    dsimp only [behind]
    rw [drop_behind]
    exact ih h
  | case3 cs n hn ih =>
    rw [ofText, hn] at h ⊢
    dsimp only [behind]
    rw [drop_behind]
    exact ih h
  | case4 cs hn =>
    rw [ofText, hn]
    exact ⟨cs, rfl⟩
  | case5 c cs h1 h2 hc ih =>
    rw [ofText_cons_of_isSpace hc] at h ⊢
    dsimp only [behind]
    rw [Nat.add_comm, List.drop_succ_cons]
    exact ih h
  | case6 c cs h1 h2 hc =>
    rw [ofText, if_neg hc] at h
    · cases h
    all_goals assumption

/-- What follows the trivia is no blank. -/
theorem isSpace_of_drop {c : Char} {rest : List Char}
    (h : cs.drop (ofText cs).length = c :: rest) : isSpace c = false := by
  cases ho : (ofText cs).openComment with
  | true =>
    obtain ⟨ds, hds⟩ := drop_of_openComment ho
    obtain ⟨rfl, -⟩ := List.cons.inj (h.symm.trans hds)
    decide
  | false =>
    have hb := not_begins_drop cs ho
    rw [h, begins, Bool.or_eq_false_iff] at hb
    exact hb.1

end Trivia

/-! ## Text literals -/

/-- A line feed stands before the last of the characters. -/
abbrev Text.Broken (cs : List Char) : Prop :=
  '\n' ∈ cs.dropLast

/-- A text up to its first line feed that has more behind it. -/
theorem Text.Broken.split {cs : List Char} (h : Broken cs) :
    ∃ line more, cs = line ++ '\n' :: more ∧ '\n' ∉ line ∧ more ≠ [] := by
  obtain ⟨line, others, hsplit, hline⟩ := List.eq_append_cons_of_mem h
  have hne : cs ≠ [] := by
    rintro rfl
    cases h
  refine ⟨line, others ++ [cs.getLast hne], ?_, hline, by simp⟩
  calc cs
    _ = cs.dropLast ++ [cs.getLast hne] := (List.dropLast_concat_getLast hne).symm
    _ = line ++ '\n' :: (others ++ [cs.getLast hne]) := by rw [hsplit]; simp

theorem Text.not_broken {cs : List Char} (h : '\n' ∉ cs) : ¬ Broken cs :=
  fun hb => h (List.dropLast_subset _ hb)

theorem Text.broken_append {cs ds : List Char} (h : '\n' ∉ cs) :
    Broken (cs ++ ds) ↔ Broken ds := by
  cases ds with
  | nil =>
    rw [List.append_nil]
    exact ⟨fun hb => absurd hb (not_broken h), fun hb => by cases hb⟩
  | cons d ds =>
    rw [Broken, List.dropLast_append_cons, List.mem_append]
    exact or_iff_right h

namespace Literal
variable {cs : List Char} {quote : Char} {n : Nat}

theorem hexDigits_crlf (width : Nat) (cs : List Char) :
    hexDigits width (crlf cs) = hexDigits width cs := by
  rw [hexDigits, ← List.take_takeWhile, takeWhile_crlf rfl rfl, List.take_takeWhile, hexDigits]

theorem escape_crlf (h : cs.head? ≠ some '\n') : escape (crlf cs) = escape cs := by
  cases cs with
  | nil => rfl
  | cons c cs =>
    rw [crlf_cons fun hc => h (congrArg some hc)]
    by_cases hu : c = 'u'
    · rw [hu, escape, escape, hexChar?, hexDigits_crlf, hexChar?]
    · by_cases hx : c = 'x'
      · rw [hx, escape, escape, hexChar?, hexDigits_crlf, hexChar?]
      · rw [escape_of_ne hu hx, escape_of_ne hu hx]

/-- The characters of an escape at fault. -/
theorem newline_not_mem_escape {fault : LexicalFault} (h : escape cs = .fault fault n) :
    '\n' ∉ cs.take n := by
  have digits : ∀ (width : Nat) (cs : List Char), '\n' ∉ cs.take (hexDigits width cs).length := by
    intro width cs hm
    have hprefix : hexDigits width cs <+: cs :=
      (List.takeWhile_prefix _).trans (List.take_prefix _ _)
    rw [← List.prefix_iff_eq_take.1 hprefix] at hm
    have hhex := List.all_eq_true.1 List.all_takeWhile _ hm
    cases hhex
  unfold escape at h
  split at h
  · rw [List.take_nil]
    exact List.not_mem_nil
  · split at h
    · cases h
    · cases h
      rw [Nat.add_comm, List.take_succ_cons, List.mem_cons, not_or]
      exact ⟨by decide, digits 4 _⟩
  · split at h
    · cases h
    · cases h
      rw [Nat.add_comm, List.take_succ_cons, List.mem_cons, not_or]
      exact ⟨by decide, digits 2 _⟩
  · cases h

theorem readBody_newline {seen : List Char} {c : Char} (hq : c ≠ quote)
    (hn : isNewline c = true) : readBody quote seen (c :: cs) = (.fault .openText, 0) := by
  rw [readBody, if_neg hq, if_pos hn]

/-- A literal that takes nothing more has no end. -/
theorem readBody_of_take_eq_nil {seen : List Char}
    (h : cs.take (readBody quote seen cs).2 = []) :
    readBody quote seen cs = (.fault .openText, 0) := by
  cases cs with
  | nil => rw [readBody]
  | cons c cs =>
    have hnone : (readBody quote seen (c :: cs)).2 = 0 :=
      (List.take_eq_nil_iff.1 h).resolve_right (List.cons_ne_nil c cs)
    rw [readBody] at hnone ⊢
    split at hnone
    · cases hnone
    · next hq =>
      rw [if_neg hq]
      split at hnone
      · next hn => rw [if_pos hn]
      · exfalso
        split at hnone
        · split at hnone <;> dsimp only at hnone <;> omega
        · dsimp only at hnone
          omega

/-- A literal that has no end at the first line feed, with the carriage return before it. -/
def cutAt (cs : List Char) : Lexeme × Nat :=
  (.fault .openText, (cs.takeWhile (· != '\n')).length + 1)

/-- Where a literal is cut is settled behind the characters that no line feed is among. -/
theorem cut_behind (front : List Char) (h : '\n' ∉ front) {found found' : Lexeme × Nat}
    (hf : found' = if Broken (cs.take found.2) then cutAt cs else found) :
    (found'.1, front.length + found'.2) =
      if Broken ((front ++ cs).take (front.length + found.2)) then cutAt (front ++ cs)
      else (found.1, front.length + found.2) := by
  rw [List.take_length_add_append]
  by_cases hb : Broken (cs.take found.2)
  · rw [if_pos hb] at hf
    rw [if_pos ((broken_append h).2 hb), hf, cutAt, cutAt, takeWhile_line h, List.length_append,
      Nat.add_assoc]
  · rw [if_neg hb] at hf
    rw [if_neg fun hb' => hb ((broken_append h).1 hb'), hf]

/-- A backslash takes the carriage return alone, and the literal has no end at the line feed. -/
theorem readBody_crlf_escaped (hquote : quote ≠ '\n') (hback : '\\' ≠ quote)
    (seen cs : List Char) : readBody quote seen (crlf ('\\' :: '\n' :: cs)) =
      if Broken (('\\' :: '\n' :: cs).take (readBody quote seen ('\\' :: '\n' :: cs)).2) then
        cutAt ('\\' :: '\n' :: cs)
      else readBody quote seen ('\\' :: '\n' :: cs) := by
  have hreturn : readBody quote seen ('\\' :: '\r' :: '\n' :: crlf cs) = (.fault .openText, 2) := by
    rw [readBody, if_neg hback, if_neg (by decide), if_pos rfl,
      escape_of_ne (by decide) (by decide)]
    simp only [List.drop_succ_cons, List.drop_zero]
    rw [readBody_newline (Ne.symm hquote) rfl]
    rfl
  obtain ⟨rest, hrest⟩ : ∃ rest, rest = readBody quote ('\n' :: seen) cs := ⟨_, rfl⟩
  have hfeed : readBody quote seen ('\\' :: '\n' :: cs) = (rest.1, rest.2 + 2) := by
    rw [readBody, if_neg hback, if_neg (by decide), if_pos rfl,
      escape_of_ne (by decide) (by decide), Nat.add_comm, hrest]
    rfl
  rw [crlf_cons (by decide), crlf_newline, hreturn, hfeed]
  dsimp only
  rw [List.take_succ_cons, List.take_succ_cons]
  by_cases hnil : cs.take rest.2 = []
  · have hnone := readBody_of_take_eq_nil (hrest ▸ hnil)
    rw [hnil, hrest, hnone]
    rfl
  · obtain ⟨c, more, hmore⟩ := List.exists_cons_of_ne_nil hnil
    have hbroken : Broken ('\\' :: '\n' :: c :: more) :=
      List.mem_cons_of_mem _ List.mem_cons_self
    rw [hmore, if_pos hbroken]
    rfl

/-- A literal is read the same, unless a line feed stands in it. -/
theorem readBody_crlf (hquote : quote ≠ '\n' ∧ quote ≠ '\r') (seen cs : List Char) :
    readBody quote seen (crlf cs) =
      if Broken (cs.take (readBody quote seen cs).2) then cutAt cs
      else readBody quote seen cs := by
  induction seen, cs using readBody.induct quote with
  | case1 seen =>
    rw [List.take_nil, if_neg (not_broken List.not_mem_nil)]
    rfl
  | case2 seen cs =>
    have hno : '\n' ∉ (quote :: cs).take 1 := by simpa using Ne.symm hquote.1
    rw [crlf_cons hquote.1, readBody, readBody, if_pos rfl, if_pos rfl, if_neg (not_broken hno)]
  | case3 seen c cs hq hn =>
    have hsame : readBody quote seen (crlf (c :: cs)) = (.fault .openText, 0) := by
      by_cases hc : c = '\n'
      · rw [hc, crlf_newline, readBody_newline (Ne.symm hquote.2) rfl]
      · rw [crlf_cons hc, readBody_newline hq hn]
    rw [hsame, readBody_newline hq hn]
    exact (if_neg (not_broken List.not_mem_nil)).symm
  | case4 seen cs fault length he hq hn =>
    have hhead : cs.head? ≠ some '\n' := by
      intro hhead
      cases cs with
      | nil => cases hhead
      | cons c cs =>
        rw [Option.some.inj hhead, escape_of_ne (by decide) (by decide)] at he
        cases he
    have hno : '\n' ∉ ('\\' :: cs).take (1 + length) := by
      rw [Nat.add_comm, List.take_succ_cons, List.mem_cons, not_or]
      exact ⟨by decide, newline_not_mem_escape he⟩
    rw [crlf_cons (by decide), readBody, readBody]
    simp only [if_neg hq, if_neg hn, if_true, escape_crlf hhead, he]
    rw [if_neg (not_broken hno)]
  | case5 seen cs d length he hq hn ih =>
    by_cases hhead : cs.head? = some '\n'
    · obtain ⟨ds, rfl⟩ := List.head?_eq_some_iff.1 hhead
      exact readBody_crlf_escaped hquote.1 hq seen ds
    · obtain ⟨first, digits, htake, hdigits⟩ := take_of_escape he
      have hno : '\n' ∉ cs.take length := by
        rw [htake, List.mem_cons, not_or]
        refine ⟨?_, fun hd => by cases hdigits _ hd⟩
        rintro rfl
        exact hhead (by rw [← List.take_append_drop length cs, htake]; rfl)
      have hle := (escape_take_append he).1
      rw [crlf_cons (by decide), readBody, readBody]
      simp only [if_neg hq, if_neg hn, if_true, escape_crlf hhead, he]
      rw [(take_drop_crlf_of_not_mem hle hno).2]
      have hcut := cut_behind ('\\' :: cs.take length)
        (List.not_mem_cons_of_ne_of_not_mem (by decide) hno) ih
      rw [List.length_cons, List.length_take_of_le hle, List.cons_append,
        List.take_append_drop, Nat.add_comm length] at hcut
      exact hcut
  | case6 seen c cs hq hn hb ih =>
    have hc : c ≠ '\n' := by
      rintro rfl
      exact hn rfl
    have hcut := cut_behind [c] (by simpa using Ne.symm hc) ih
    rw [crlf_cons hc, readBody, readBody]
    simp only [if_neg hq, if_neg hn, if_neg hb]
    exact hcut

end Literal

/-! ## Any lexeme -/

namespace Lexeme
variable {g : Grammar} {c : Char} {cs : List Char}

theorem read_of_quote (h : (c == '\'' || c == '"') = true) (g : Grammar) (cs : List Char) :
    read g c cs = Literal.read c cs := by
  have hq := h
  simp only [Bool.or_eq_true, beq_iff_eq] at hq
  refine (Start.literal ?_ ?_ ?_ ?_ h).read_eq
  · obtain rfl | rfl := hq <;> rfl
  · obtain rfl | rfl := hq <;> exact (isNameStart_ascii (by decide)).trans (by decide)
  · obtain rfl | rfl := hq <;> rfl
  · obtain rfl | rfl := hq <;> decide

/-- No line feed stands in a lexeme that does not begin with a quote, and it is read the same. -/
theorem read_crlf_of_not_quote (h : (c == '\'' || c == '"') = false) :
    read g c (crlf cs) = read g c cs ∧ '\n' ∉ cs.take (read g c cs).2 := by
  by_cases hm : '\n' ∈ cs
  · obtain ⟨line, more, rfl, hno⟩ := List.eq_append_cons_of_mem hm
    have hfeed : LineEnd ('\n' :: more) := fun _ hd => .inl (Option.some.inj hd).symm
    have hreturn : LineEnd ('\r' :: '\n' :: crlf more) := fun _ hd => .inr (Option.some.inj hd).symm
    rw [crlf_append, crlf_newline, crlf_of_not_mem hno, read_append_lineEnd h hfeed,
      read_append_lineEnd h hreturn, List.take_append_of_le_length (read_le g c line)]
    exact ⟨rfl, fun hm => hno (List.mem_of_mem_take hm)⟩
  · rw [crlf_of_not_mem hm]
    exact ⟨rfl, fun hm' => hm (List.mem_of_mem_take hm')⟩

/-- A lexeme is read the same, unless it is a text literal that a line feed stands in. -/
theorem read_crlf (g : Grammar) (c : Char) (cs : List Char) :
    read g c (crlf cs) =
      if Broken (cs.take (read g c cs).2) then Literal.cutAt cs else read g c cs := by
  cases hq : (c == '\'' || c == '"') with
  | true =>
    have hquote : c ≠ '\n' ∧ c ≠ '\r' := by
      simp only [Bool.or_eq_true, beq_iff_eq] at hq
      obtain rfl | rfl := hq <;> decide
    rw [read_of_quote hq, read_of_quote hq]
    exact Literal.readBody_crlf hquote [] cs
  | false =>
    obtain ⟨hread, hno⟩ := @read_crlf_of_not_quote g c cs hq
    rw [hread, if_neg (not_broken hno)]

/-- The last character of a lexeme that is no fault is no line feed. -/
theorem newline_not_mem_read (hf : (read g c cs).1.isFault = false)
    (h : ¬ Broken (cs.take (read g c cs).2)) : '\n' ∉ cs.take (read g c cs).2 := by
  cases hq : (c == '\'' || c == '"') with
  | true =>
    obtain ⟨hquote, hhex⟩ : c ≠ '\n' ∧ isHexDigit c = false := by
      simp only [Bool.or_eq_true, beq_iff_eq] at hq
      obtain rfl | rfl := hq <;> decide
    rw [read_of_quote hq] at hf h ⊢
    obtain ⟨fault, hlit⟩ | ⟨value, hlit⟩ := Literal.readBody_lexeme c [] cs
    · rw [Literal.read, hlit] at hf
      cases hf
    · obtain ⟨inner, hinner, -⟩ := Literal.quoted_of_readBody hhex (Prod.ext hlit rfl)
      rw [Literal.read] at h ⊢
      rw [hinner] at h ⊢
      rw [Broken, List.dropLast_concat] at h
      simp [h, Ne.symm hquote]
  | false => exact (read_crlf_of_not_quote hq).2

end Lexeme

end TemplateExpr
