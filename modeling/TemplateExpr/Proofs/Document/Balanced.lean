/-
  Balanced characters: what may stand between the braces of a region. Braces come in pairs, but
  for the braces between two quotes, and every quote has its partner.

  * `Balanced.closing?_append`: the search for the closing brace passes over balanced characters.
  * `RegionWalk.next_of_balanced`: the first region of a document, if the characters behind the
    first brace are balanced up to a closing brace.
-/
import TemplateExpr.Proofs.Document.Partition

namespace TemplateExpr
open Source Text

/-- Characters that may stand between two quotes: the quote itself only behind a backslash, which
    takes the next character with it. -/
inductive Quoted (quote : Char) : List Char → Prop
  | nil : Quoted quote []
  | plain {c cs} : c ≠ quote → c ≠ '\\' → Quoted quote cs → Quoted quote (c :: cs)
  | escape {c cs} : Quoted quote cs → Quoted quote ('\\' :: c :: cs)

/-- No quote and no brace. -/
def isPlain (c : Char) : Bool :=
  !isQuote c && c != '{' && c != '}'

/-- Plain characters, text between quotes, and balanced characters between braces. -/
inductive Balanced : List Char → Prop
  | nil : Balanced []
  | plain {c cs} : isPlain c = true → Balanced cs → Balanced (c :: cs)
  | quoted {quote inner cs} : isQuote quote = true → Quoted quote inner → Balanced cs →
    Balanced (quote :: (inner ++ quote :: cs))
  | nested {inner cs} : Balanced inner → Balanced cs → Balanced ('{' :: (inner ++ '}' :: cs))

section
variable {quote : Char} {cs ds : List Char}

theorem Quoted.of_plain (h : ∀ c ∈ cs, c ≠ quote ∧ c ≠ '\\') (hd : Quoted quote ds) :
    Quoted quote (cs ++ ds) := by
  induction cs with
  | nil => exact hd
  | cons c cs ih =>
    obtain ⟨hc, hcs⟩ := List.forall_mem_cons.1 h
    exact .plain hc.1 hc.2 (ih hcs)

theorem Balanced.of_plain (h : ∀ c ∈ cs, isPlain c = true) : Balanced cs := by
  induction cs with
  | nil => exact .nil
  | cons c cs ih =>
    obtain ⟨hc, hcs⟩ := List.forall_mem_cons.1 h
    exact .plain hc (ih hcs)

theorem Balanced.append (h : Balanced cs) (hd : Balanced ds) : Balanced (cs ++ ds) := by
  induction h with
  | nil => exact hd
  | plain hc _ ih => exact .plain hc ih
  | quoted hq hi _ ih =>
    rw [List.cons_append, List.append_assoc, List.cons_append]
    exact .quoted hq hi ih
  | nested hi _ _ ih =>
    rw [List.cons_append, List.append_assoc, List.cons_append]
    exact .nested hi ih

/-! ## The search for the closing brace -/

theorem map_add_add (found : Option Nat) (m n : Nat) :
    (found.map (· + m)).map (· + n) = found.map (· + (m + n)) := by
  cases found with
  | none => rfl
  | some k => exact congrArg some (Nat.add_assoc k m n)

/-- Inside quotes the search goes on to the closing quote. -/
theorem Quoted.closing?_append (h : Quoted quote cs) (hq : isQuote quote = true) (depth : Nat) :
    Region.closing? depth (some quote) (cs ++ quote :: ds) =
      (Region.closing? depth none ds).map (· + (cs.length + 1)) := by
  have hslash : quote ≠ '\\' := by
    rintro rfl
    cases hq
  induction h with
  | nil =>
    rw [List.nil_append, Region.closing?, if_neg hslash, if_pos rfl]
    · rfl
    · exact fun _ _ h => absurd h hslash
  | plain hc hb _ ih =>
    rw [List.cons_append, Region.closing?, if_neg hb, if_neg hc, ih, map_add_add]
    · rfl
    · exact fun _ _ h => absurd h hb
  | escape _ ih =>
    rw [List.cons_append, List.cons_append, Region.closing?, ih, map_add_add]
    rfl

/-- The search passes over balanced characters, whatever braces are open. -/
theorem Balanced.closing?_append (h : Balanced cs) {depth : Nat} (hd : 1 ≤ depth)
    (ds : List Char) : Region.closing? depth none (cs ++ ds) =
      (Region.closing? depth none ds).map (· + cs.length) := by
  induction h generalizing depth ds with
  | nil => exact Option.map_id'.symm
  | plain hc _ ih =>
    simp only [isPlain, Bool.and_eq_true, Bool.not_eq_true', bne_iff_ne, ne_eq] at hc
    rw [List.cons_append, Region.closing?, hc.1.1, if_neg (by simp), if_neg hc.1.2, if_neg hc.2,
      ih hd, map_add_add]
    rfl
  | @quoted quote inner cs hq hi _ ih =>
    have hlength : (quote :: (inner ++ quote :: cs)).length =
        cs.length + (inner.length + 1 + 1) := by
      simp only [List.length_cons, List.length_append]
      omega
    rw [List.cons_append, List.append_assoc, List.cons_append, Region.closing?, if_pos hq,
      hi.closing?_append hq, ih hd, map_add_add, map_add_add, hlength]
  | @nested inner cs _ _ ihi ih =>
    have hlength : ('{' :: (inner ++ '}' :: cs)).length =
        cs.length + (1 + (inner.length + 1)) := by
      simp only [List.length_cons, List.length_append]
      omega
    rw [List.cons_append, List.append_assoc, List.cons_append, Region.closing?,
      if_neg (by decide), if_pos rfl, ihi (by omega), Region.closing?, if_neg (by decide),
      if_neg (by decide), if_pos rfl, if_neg (by omega), Nat.add_sub_cancel, ih hd,
      map_add_add, map_add_add, map_add_add, hlength]

/-- The first brace closes where the balanced characters end. -/
theorem Balanced.closing?_brace (h : Balanced cs) (ds : List Char) :
    Region.closing? 1 none (cs ++ '}' :: ds) = some (cs.length + 1) := by
  rw [h.closing?_append (Nat.le_refl 1), Region.closing?, if_neg (by decide), if_neg (by decide),
    if_pos rfl, if_pos (Nat.le_refl 1), Option.map_some, Nat.add_comm]

end

/-- The first answer of the walk over a document whose first brace encloses balanced
    characters. -/
theorem RegionWalk.next_of_balanced {before code : List Char} (hb : '{' ∉ before)
    (hc : Balanced code) (after : List Char) :
    (ofDocument (before ++ '{' :: (code ++ '}' :: after))).next.1 =
      some (.ok ⟨code, Origin.ofPlace (Cursor.origin.past (before ++ ['{'])).place,
        before.length, before.length + code.length + 2⟩) := by
  have hbefore : ∀ c ∈ before, (c != '{') = true := by
    intro c hm
    rw [bne_iff_ne]
    rintro rfl
    exact hb hm
  have htake : (before ++ '{' :: (code ++ '}' :: after)).takeWhile (· != '{') = before := by
    rw [List.takeWhile_append_of_pos hbefore]
    exact List.append_nil before
  have hdrop : (before ++ '{' :: (code ++ '}' :: after)).dropWhile (· != '{') =
      '{' :: (code ++ '}' :: after) := by
    rw [List.dropWhile_append_of_pos hbefore]
    rfl
  rw [@next_of_brace (ofDocument (before ++ '{' :: (code ++ '}' :: after))) [] _ hdrop rfl _
    (hc.closing?_brace after)]
  simp only [ofDocument, htake, List.nil_append, Nat.add_sub_cancel, List.take_left',
    Option.some.injEq, Except.ok.injEq, Region.mk.injEq, true_and]
  omega

end TemplateExpr
