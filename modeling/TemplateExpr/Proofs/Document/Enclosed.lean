/-
  What a region is, told without the search for its end: balanced characters between two braces.
  The search has a count of the open braces and the open quote and reads the text once; what it
  passes over are, for each open brace, balanced characters and the brace behind them.

  * `Region.unwinds_of_closing?`: what a search has passed over when it ends.
  * `Region.counted?_eq`: the count of the open braces never falls below zero.
  * `Region.at?_iff_enclosed`: the look at the offset of a brace finds the enclosed characters
    that begin there, and the error if there are none.
-/
import TemplateExpr.Proofs.Document.Balanced

namespace TemplateExpr
open Source Text

/-- The characters of a region: balanced ones between two braces. -/
def Enclosed (cs : List Char) : Prop :=
  ∃ code, cs = '{' :: (code ++ ['}']) ∧ Balanced code

/-- For each of the open braces, balanced characters and the brace that closes it. -/
inductive Unwinds : Nat → List Char → Prop
  | nil : Unwinds 0 []
  | close {depth inner rest} : Balanced inner → Unwinds depth rest →
    Unwinds (depth + 1) (inner ++ '}' :: rest)

section
variable {depth : Nat} {cs inner : List Char}

/-- The text up to the brace that closes the innermost open one, and what is behind it. -/
theorem Unwinds.split (h : Unwinds (depth + 1) cs) :
    ∃ inner rest, cs = inner ++ '}' :: rest ∧ Balanced inner ∧ Unwinds depth rest := by
  cases h with
  | close hb hr => exact ⟨_, _, rfl, hb, hr⟩

/-- Balanced characters may stand in front. -/
theorem Unwinds.behind (h : Unwinds (depth + 1) cs) (hi : Balanced inner) :
    Unwinds (depth + 1) (inner ++ cs) := by
  obtain ⟨front, rest, rfl, hb, hr⟩ := h.split
  rw [← List.append_assoc]
  exact .close (hi.append hb) hr

/-- What closes one more brace closes the others behind that one. -/
theorem Unwinds.nested (h : Unwinds (depth + 2) cs) : Unwinds (depth + 1) ('{' :: cs) := by
  obtain ⟨inner, rest, rfl, hb, hr⟩ := h.split
  have hpair : Balanced ('{' :: (inner ++ '}' :: [])) := .nested hb .nil
  have hall := hr.behind hpair
  rwa [List.cons_append, List.append_assoc] at hall

theorem Unwinds.single (h : Unwinds 1 cs) : ∃ inner, cs = inner ++ ['}'] ∧ Balanced inner := by
  obtain ⟨inner, rest, rfl, hb, hr⟩ := h.split
  cases hr
  exact ⟨inner, rfl, hb⟩

end

namespace Region

/-! ## The end of the search -/

/-- What the search has passed over when it ends: behind an open quote, the rest of the text
    between the quotes comes first. -/
def Passed (depth : Nat) (quote : Option Char) (cs : List Char) : Prop :=
  match quote with
  | none => Unwinds depth cs
  | some quote => isQuote quote = true → ∃ inner rest, cs = inner ++ quote :: rest ∧
    Quoted quote inner ∧ Unwinds depth rest

/-- The search passes over balanced characters and closing braces, one for each brace that was
    open. The induction is on the search: each of its steps extends what the rest of it passes. -/
theorem unwinds_of_closing? {depth : Nat} {quote : Option Char} {cs : List Char} {n : Nat}
    (hd : 1 ≤ depth) (h : closing? depth quote cs = some n) :
    Passed depth quote (cs.take n) := by
  induction depth, quote, cs using closing?.induct generalizing n with
  | case1 => cases h
  | case2 depth quote c cs ih =>
    rw [closing?] at h
    obtain ⟨m, hm, rfl⟩ := Option.map_eq_some_iff.1 h
    intro hq
    obtain ⟨inner, rest, hcs, hi, hr⟩ := ih hd hm hq
    refine ⟨'\\' :: c :: inner, rest, ?_, .escape hi, hr⟩
    rw [List.take_succ_cons, List.take_succ_cons, hcs]
    rfl
  | case3 depth quote cs hn =>
    rw [closing?, if_pos rfl] at h
    · cases h
    · exact hn
  | case4 depth quote c cs hn hc ih =>
    rw [closing?, if_neg hc] at h
    · obtain ⟨m, hm, rfl⟩ := Option.map_eq_some_iff.1 h
      intro hq
      have hpassed := ih hd hm
      by_cases hclose : c = quote
      · rw [if_pos hclose] at hpassed
        exact ⟨[], cs.take m, by rw [List.take_succ_cons, hclose]; rfl, .nil, hpassed⟩
      · rw [if_neg hclose] at hpassed
        obtain ⟨inner, rest, hcs, hi, hr⟩ := hpassed hq
        exact ⟨c :: inner, rest, by rw [List.take_succ_cons, hcs]; rfl, .plain hclose hc hi, hr⟩
    · exact hn
  | case5 depth c cs hq ih =>
    rw [closing?, if_pos hq] at h
    obtain ⟨m, hm, rfl⟩ := Option.map_eq_some_iff.1 h
    obtain ⟨inner, rest, hcs, hi, hr⟩ := ih hd hm hq
    obtain ⟨depth, rfl⟩ := Nat.exists_eq_add_of_le' hd
    have hquoted : Balanced (c :: (inner ++ c :: [])) := .quoted hq hi .nil
    have hall := hr.behind hquoted
    rw [List.cons_append, List.append_assoc] at hall
    rw [List.take_succ_cons, hcs]
    exact hall
  | case6 depth cs hq ih =>
    rw [closing?, if_neg hq, if_pos rfl] at h
    obtain ⟨m, hm, rfl⟩ := Option.map_eq_some_iff.1 h
    obtain ⟨depth, rfl⟩ := Nat.exists_eq_add_of_le' hd
    exact Unwinds.nested (ih (Nat.succ_pos _) hm)
  | case7 depth cs hle hq hb =>
    rw [closing?, if_neg hq, if_neg hb, if_pos rfl, if_pos hle] at h
    cases h
    obtain rfl : depth = 1 := Nat.le_antisymm hle hd
    exact .close .nil .nil
  | case8 depth cs hgt hq hb ih =>
    rw [closing?, if_neg hq, if_neg hb, if_pos rfl, if_neg hgt] at h
    obtain ⟨m, hm, rfl⟩ := Option.map_eq_some_iff.1 h
    obtain ⟨depth, rfl⟩ := Nat.exists_eq_add_of_le' (Nat.lt_of_not_le hgt)
    exact .close .nil (ih (Nat.succ_pos _) hm)
  | case9 depth c cs hq ho hc ih =>
    rw [closing?, if_neg hq, if_neg ho, if_neg hc] at h
    obtain ⟨m, hm, rfl⟩ := Option.map_eq_some_iff.1 h
    obtain ⟨depth, rfl⟩ := Nat.exists_eq_add_of_le' hd
    have hplain : Balanced [c] := .plain (by simp [isPlain, hq, ho, hc]) .nil
    exact (ih hd hm).behind hplain

/-- A brace closes behind balanced characters, and there only. -/
theorem closing?_eq_some_iff {cs : List Char} {n : Nat} :
    closing? 1 none cs = some n ↔
      ∃ code after, cs = code ++ '}' :: after ∧ n = code.length + 1 ∧ Balanced code := by
  constructor
  · intro h
    obtain ⟨code, hcode, hb⟩ := Unwinds.single (unwinds_of_closing? (Nat.le_refl 1) h)
    obtain ⟨front, after, rfl, rfl⟩ := splitAt_of_closing? h
    have htake : (front ++ '}' :: after).take (front.length + 1) = front ++ ['}'] := by
      rw [List.take_length_add_append]
      rfl
    rw [htake, List.append_left_inj] at hcode
    exact ⟨front, after, rfl, rfl, hcode ▸ hb⟩
  · rintro ⟨code, after, rfl, rfl, hb⟩
    exact hb.closing?_brace after

/-- Characters are balanced if and only if a brace behind them is the one that closes. -/
theorem closing?_brace_iff {cs : List Char} :
    closing? 1 none (cs ++ ['}']) = some (cs.length + 1) ↔ Balanced cs := by
  constructor
  · intro h
    obtain ⟨code, after, hcs, hlength, hb⟩ := closing?_eq_some_iff.1 h
    obtain ⟨rfl, -⟩ := List.append_inj hcs (Nat.add_right_cancel hlength)
    exact hb
  · exact fun hb => hb.closing?_brace []

instance (cs : List Char) : Decidable (Balanced cs) :=
  decidable_of_iff _ closing?_brace_iff

/-! ## The count of the open braces -/

/-- The search as it counts: no brace is open before the first one, and there is no answer where
    the count would fall below zero. -/
def counted? : Nat → Option Char → List Char → Option (Option Nat)
  | _, _, [] => some none
  | depth, some quote, '\\' :: _ :: cs => (counted? depth (some quote) cs).map (·.map (· + 2))
  | depth, some quote, c :: cs =>
    if c = '\\' then some none
    else (counted? depth (if c = quote then none else some quote) cs).map (·.map (· + 1))
  | depth, none, c :: cs =>
    if isQuote c then (counted? depth (some c) cs).map (·.map (· + 1))
    else if c = '{' then (counted? (depth + 1) none cs).map (·.map (· + 1))
    else if c = '}' then
      if depth = 0 then none
      else if depth = 1 then some (some 1)
      else (counted? (depth - 1) none cs).map (·.map (· + 1))
    else (counted? depth none cs).map (·.map (· + 1))

/-- With a brace open the count never falls below zero: it is one at the least, and the search
    ends where the last open brace is closed. -/
theorem counted?_eq {depth : Nat} (hd : 1 ≤ depth) (quote : Option Char) (cs : List Char) :
    counted? depth quote cs = some (closing? depth quote cs) := by
  induction depth, quote, cs using closing?.induct with
  | case1 => rfl
  | case2 depth quote c cs ih => rw [counted?, closing?, ih hd]; rfl
  | case3 depth quote cs hn =>
    rw [counted?, closing?, if_pos rfl, if_pos rfl]
    all_goals exact hn
  | case4 depth quote c cs hn hc ih =>
    rw [counted?, closing?, if_neg hc, if_neg hc, ih hd]
    · rfl
    all_goals exact hn
  | case5 depth c cs hq ih => rw [counted?, closing?, if_pos hq, if_pos hq, ih hd]; rfl
  | case6 depth cs hq ih =>
    rw [counted?, closing?, if_neg hq, if_neg hq, if_pos rfl, if_pos rfl, ih (Nat.succ_pos _)]
    rfl
  | case7 depth cs hle hq hb =>
    obtain rfl : depth = 1 := Nat.le_antisymm hle hd
    rfl
  | case8 depth cs hgt hq hb ih =>
    rw [counted?, closing?, if_neg hq, if_neg hq, if_neg hb, if_neg hb, if_pos rfl, if_pos rfl,
      if_neg hgt, if_neg (by omega), if_neg (by omega), ih (by omega)]
    rfl
  | case9 depth c cs hq ho hc ih =>
    rw [counted?, closing?, if_neg hq, if_neg hq, if_neg ho, if_neg ho, if_neg hc, if_neg hc,
      ih hd]
    rfl

/-- The search from the opening brace on, with no brace open before it. -/
theorem counted?_brace (inner : List Char) :
    counted? 0 none ('{' :: inner) = some ((closing? 1 none inner).map (· + 1)) := by
  rw [counted?, if_neg (by decide), if_pos rfl, counted?_eq (Nat.le_refl 1)]
  rfl

end Region

/-! ## The look at an offset -/

namespace Region
variable {before inner : List Char} {stop : Nat}

/-- The piece of a document from a brace on is enclosed if and only if the search ends with it. -/
theorem enclosed_extract_iff (hs : stop ≤ (before ++ '{' :: inner).length) :
    Enclosed ((before ++ '{' :: inner).extract before.length stop) ↔
      ∃ n, closing? 1 none inner = some n ∧ stop = before.length + 1 + n := by
  have hextract : (before ++ '{' :: inner).extract before.length stop =
      ('{' :: inner).take (stop - before.length) := by
    rw [List.extract_eq_take_drop, List.drop_left]
  rw [List.length_append] at hs
  rw [hextract]
  constructor
  · rintro ⟨code, hcode, hb⟩
    have hlength := congrArg List.length hcode
    rw [List.length_take_of_le (by omega), List.length_cons, List.length_append,
      List.length_singleton] at hlength
    have hprefix : '{' :: (code ++ ['}']) <+: '{' :: inner := hcode ▸ List.take_prefix _ _
    obtain ⟨after, rfl⟩ := (List.prefix_cons_inj _).1 hprefix
    refine ⟨code.length + 1, ?_, by omega⟩
    rw [List.append_assoc]
    exact hb.closing?_brace after
  · rintro ⟨n, hn, rfl⟩
    obtain ⟨code, after, rfl, rfl, hb⟩ := closing?_eq_some_iff.1 hn
    have hcount : before.length + 1 + (code.length + 1) - before.length = code.length + 2 := by
      omega
    rw [hcount, List.take_succ_cons, List.take_length_add_append]
    exact ⟨code, rfl, hb⟩

/-- A look at the offset of a brace, told by the search behind the brace. -/
theorem at?_eq (before inner : List Char) :
    at? (before ++ '{' :: inner) before.length =
      match closing? 1 none inner with
      | some n => .ok (some ⟨inner.take (n - 1),
          Origin.atOffset (before ++ '{' :: inner) (before.length + 1), before.length,
          before.length + 1 + n⟩)
      | none => .error ⟨.openBrace,
          ⟨before.length, positionAt (before ++ '{' :: inner) before.length⟩, none⟩ := by
  rw [at?, List.drop_left]
  rfl

/-- Between two braces the region is all that stands there if and only if that is balanced. -/
theorem at?_zero_iff {code : List Char} :
    at? ('{' :: (code ++ ['}'])) 0 = .ok (some ⟨code, ⟨1, 0, 1⟩, 0, code.length + 2⟩) ↔
      Balanced code := by
  rw [← closing?_brace_iff]
  have hat := at?_eq [] (code ++ ['}'])
  rw [List.nil_append, List.length_nil] at hat
  rw [hat]
  constructor
  · intro h
    cases hn : closing? 1 none (code ++ ['}']) with
    | none => rw [hn] at h; cases h
    | some n =>
      rw [hn] at h
      have hregion := Option.some.inj (Except.ok.inj h)
      have hstop : 0 + 1 + n = code.length + 2 := congrArg Region.stop hregion
      exact congrArg some (by omega)
  · intro h
    have hstop : 0 + 1 + (code.length + 1) = code.length + 2 := by omega
    rw [h]
    simp only [Nat.add_sub_cancel, List.take_left', hstop]
    rfl

/-- At the offset of a brace the region is found that ends at `stop` if and only if the characters
    up to there are enclosed, which they are for one end at the most. The code of the region is
    what stands between its braces. If no characters from there on are enclosed, and only then,
    the error is found, at the offset of the brace. The count of the open braces never falls below
    zero on the way. -/
theorem at?_iff_enclosed {document : List Char} {start : Nat} (h : document[start]? = some '{') :
    (∀ stop ≤ document.length,
      at? document start = .ok (some ⟨document.extract (start + 1) (stop - 1),
        Origin.atOffset document (start + 1), start, stop⟩) ↔
      Enclosed (document.extract start stop)) ∧
    (∀ stop ≤ document.length, ∀ stop' ≤ document.length,
      Enclosed (document.extract start stop) → Enclosed (document.extract start stop') →
      stop = stop') ∧
    (at? document start = .error ⟨.openBrace, ⟨start, positionAt document start⟩, none⟩ ↔
      ∀ stop ≤ document.length, ¬ Enclosed (document.extract start stop)) ∧
    counted? 0 none (document.drop start) =
      some ((closing? 1 none (document.drop (start + 1))).map (· + 1)) := by
  obtain ⟨hlt, hbrace⟩ := List.getElem?_eq_some_iff.1 h
  obtain ⟨before, inner, rfl, rfl⟩ : ∃ before inner, document = before ++ '{' :: inner ∧
      before.length = start := by
    refine ⟨document.take start, document.drop (start + 1), ?_, List.length_take_of_le (Nat.le_of_lt hlt)⟩
    rw [← hbrace, ← List.drop_eq_getElem_cons hlt, List.take_append_drop]
  have hdrop : (before ++ '{' :: inner).drop (before.length + 1) = inner := by
    rw [List.drop_length_add_append]
    rfl
  have hcode : ∀ n, (before ++ '{' :: inner).extract (before.length + 1)
      (before.length + 1 + n - 1) = inner.take (n - 1) := by
    intro n
    rw [List.extract_eq_take_drop, hdrop]
    congr 1
    omega
  have hat := at?_eq before inner
  refine ⟨fun stop hs => ?_, fun stop hs stop' hs' he he' => ?_, ?_, ?_⟩
  · rw [enclosed_extract_iff hs, hat]
    constructor
    · intro hfound
      cases hn : closing? 1 none inner with
      | none => rw [hn] at hfound; cases hfound
      | some n =>
        rw [hn] at hfound
        have hregion := Option.some.inj (Except.ok.inj hfound)
        exact ⟨n, rfl, (congrArg Region.stop hregion).symm⟩
    · rintro ⟨n, hn, rfl⟩
      rw [hn, hcode]
  · obtain ⟨n, hn, rfl⟩ := (enclosed_extract_iff hs).1 he
    obtain ⟨n', hn', rfl⟩ := (enclosed_extract_iff hs').1 he'
    rw [Option.some.inj (hn.symm.trans hn')]
  · rw [hat]
    constructor
    · intro hfound stop hs he
      obtain ⟨n, hn, -⟩ := (enclosed_extract_iff hs).1 he
      rw [hn] at hfound
      cases hfound
    · intro hnone
      cases hn : closing? 1 none inner with
      | none => rfl
      | some n =>
        obtain ⟨code, after, rfl, rfl, -⟩ := closing?_eq_some_iff.1 hn
        have hle : before.length + 1 + (code.length + 1) ≤
            (before ++ '{' :: (code ++ '}' :: after)).length := by
          simp only [List.length_append, List.length_cons]
          omega
        exact absurd ((enclosed_extract_iff hle).2 ⟨_, hn, rfl⟩) (hnone _ hle)
  · rw [List.drop_left, hdrop, counted?_brace]

end Region

/-- Quotes of the other two kinds between quotes, a brace and a quote behind backslashes, and a
    backslash outside of quotes, which takes nothing with it. -/
theorem at?_iff_enclosed_quotes :
    let document := "x \x7b\\\x7b\"'\x7d\\\"`\"\x7d\x7d \x7d".toList
    document[2]? = some '{' ∧
      Region.at? document 2 = .ok (some ⟨"\\\x7b\"'\x7d\\\"`\"\x7d".toList, ⟨3, 0, 3⟩, 2, 14⟩) ∧
      Enclosed (document.extract 2 14) := by
  intro document
  have hbrace : document[2]? = some '{' := by decide
  have hat : Region.at? document 2 =
      .ok (some ⟨"\\\x7b\"'\x7d\\\"`\"\x7d".toList, ⟨3, 0, 3⟩, 2, 14⟩) := by rfl
  exact ⟨hbrace, hat, ((Region.at?_iff_enclosed hbrace).1 14 (by decide)).1 hat⟩

end TemplateExpr
