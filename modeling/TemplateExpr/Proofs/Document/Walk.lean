/-
  The walk over a document knows where it stands: until it is over, its cursor is the one that
  reading the document up to there gives, and what is left is the rest of the document.

  * `RegionWalk.tracks_after`: that holds after any number of steps.
  * `Region.FoundIn.split`: so a region that the walk finds is the stretch of the document that
    it says it is.
  * `Region.StandsIn.fits`: its code fits into the document.
-/
import TemplateExpr.Document.Region

namespace TemplateExpr
open Source Text

/-! ## The closing brace -/

/-- The closing brace of a text and what stands before and behind it. -/
def Region.SplitAt (cs : List Char) (n : Nat) : Prop :=
  ∃ code after, cs = code ++ '}' :: after ∧ n = code.length + 1

theorem Region.SplitAt.behind {cs : List Char} {n : Nat} (h : SplitAt cs n)
    (taken : List Char) : SplitAt (taken ++ cs) (n + taken.length) := by
  obtain ⟨code, after, rfl, rfl⟩ := h
  refine ⟨taken ++ code, after, by rw [List.append_assoc], ?_⟩
  rw [List.length_append]
  omega

/-- The count ends behind a closing brace. -/
theorem Region.splitAt_of_closing? {depth : Nat} {quote : Option Char} {cs : List Char} {n : Nat}
    (h : closing? depth quote cs = some n) : SplitAt cs n := by
  induction depth, quote, cs using closing?.induct generalizing n with
  | case1 => simp [closing?] at h
  | case2 depth quote c cs ih =>
    rw [closing?] at h
    obtain ⟨m, hm, rfl⟩ := Option.map_eq_some_iff.1 h
    exact (ih hm).behind ['\\', c]
  | case3 depth quote cs hn =>
    rw [closing?, if_pos rfl] at h
    · cases h
    · exact hn
  | case4 depth quote c cs hn hc ih =>
    rw [closing?, if_neg hc] at h
    · obtain ⟨m, hm, rfl⟩ := Option.map_eq_some_iff.1 h
      exact (ih hm).behind [c]
    · exact hn
  | case5 depth c cs hq ih =>
    rw [closing?, if_pos hq] at h
    obtain ⟨m, hm, rfl⟩ := Option.map_eq_some_iff.1 h
    exact (ih hm).behind [c]
  | case6 depth cs hq ih =>
    rw [closing?, if_neg hq, if_pos rfl] at h
    obtain ⟨m, hm, rfl⟩ := Option.map_eq_some_iff.1 h
    exact (ih hm).behind ['{']
  | case7 depth cs hd hq hb =>
    rw [closing?, if_neg hq, if_neg hb, if_pos rfl, if_pos hd] at h
    cases h
    exact ⟨[], cs, rfl, rfl⟩
  | case8 depth cs hd hq hb ih =>
    rw [closing?, if_neg hq, if_neg hb, if_pos rfl, if_neg hd] at h
    obtain ⟨m, hm, rfl⟩ := Option.map_eq_some_iff.1 h
    exact (ih hm).behind ['}']
  | case9 depth c cs hq ho hc ih =>
    rw [closing?, if_neg hq, if_neg ho, if_neg hc] at h
    obtain ⟨m, hm, rfl⟩ := Option.map_eq_some_iff.1 h
    exact (ih hm).behind [c]

/-! ## The walk -/

/-- The walk after some steps. -/
def RegionWalk.after (walk : RegionWalk) : Nat → RegionWalk
  | 0 => walk
  | n + 1 => (walk.after n).next.2

/-- Some step of the walk over the document finds the region. -/
def Region.FoundIn (region : Region) (document : List Char) : Prop :=
  ∃ n, ((RegionWalk.ofDocument document).after n).next.1 = some (.ok region)

/-- The walk is over, or it stands where reading the document up to there leads. -/
def RegionWalk.Tracks (document : List Char) (walk : RegionWalk) : Prop :=
  walk.rest = [] ∨
    ∃ before, document = before ++ walk.rest ∧ walk.cursor = Cursor.origin.past before

/-- A region that stands in the document where it says. -/
structure Region.StandsIn (region : Region) (document : List Char) (before after : List Char) :
    Prop where
  document_eq : document = before ++ '{' :: region.code ++ '}' :: after
  start_eq : region.start = before.length
  stop_eq : region.stop = before.length + region.code.length + 2
  origin_eq : region.origin = Origin.ofPlace (Cursor.origin.past (before ++ ['{'])).place

namespace RegionWalk

variable {document : List Char} {walk : RegionWalk}

theorem tracks_ofDocument (document : List Char) : (ofDocument document).Tracks document :=
  .inr ⟨[], rfl, rfl⟩

theorem dropWhile_eq_cons_brace {cs inner : List Char} {c : Char}
    (h : cs.dropWhile (· != '{') = c :: inner) : c = '{' := by
  have hc := List.head?_dropWhile_not (· != '{') cs
  rw [h] at hc
  simpa using hc

/-- What a step finds at the next brace, when the walk stands where it says. -/
theorem next_of_brace {before inner : List Char}
    (hr : walk.rest.dropWhile (· != '{') = '{' :: inner)
    (hc : walk.cursor = Cursor.origin.past before) {n : Nat}
    (hn : Region.closing? 1 none inner = some n) :
    walk.next =
      (let front := before ++ walk.rest.takeWhile (· != '{')
      let opened := Cursor.origin.past (front ++ ['{'])
      (some (.ok ⟨inner.take (n - 1), Origin.ofPlace opened.place, front.length,
          front.length + 1 + n⟩),
        ⟨opened.past (inner.take n), inner.drop n⟩)) := by
  unfold next
  rw [hr, hc]
  simp only [hn, ← Cursor.past_append, Cursor.offset_past]
  simp [Cursor.origin, Place.origin, Cursor.past_append]

theorem next_of_noBrace (hr : walk.rest.dropWhile (· != '{') = []) :
    walk.next = (none, walk.finished) := by
  unfold next
  rw [hr]

/-- The error at the next brace, when that has no partner. -/
theorem next_of_openBrace {before inner : List Char}
    (hr : walk.rest.dropWhile (· != '{') = '{' :: inner)
    (hc : walk.cursor = Cursor.origin.past before) (hn : Region.closing? 1 none inner = none) :
    walk.next =
      (some (.error ⟨.openBrace,
          (Cursor.origin.past (before ++ walk.rest.takeWhile (· != '{'))).place, none⟩),
        walk.finished) := by
  unfold next
  rw [hr, hc]
  simp only [hn, ← Cursor.past_append]

/-- One step of the walk: no brace is left, or the next one has no partner, or a region begins
    at it. -/
theorem next_cases {before : List Char} (hc : walk.cursor = Cursor.origin.past before) :
    ('{' ∉ walk.rest ∧ walk.next = (none, walk.finished)) ∨
    (∃ gap inner, walk.rest = gap ++ '{' :: inner ∧ '{' ∉ gap ∧
      Region.closing? 1 none inner = none ∧
      walk.next = (some (.error ⟨.openBrace, (Cursor.origin.past (before ++ gap)).place, none⟩),
        walk.finished)) ∨
    ∃ gap code after, walk.rest = gap ++ '{' :: (code ++ '}' :: after) ∧ '{' ∉ gap ∧
      Region.closing? 1 none (code ++ '}' :: after) = some (code.length + 1) ∧
      walk.next =
        (some (.ok ⟨code, Origin.ofPlace (Cursor.origin.past (before ++ gap ++ ['{'])).place,
            (before ++ gap).length, (before ++ gap).length + code.length + 2⟩),
          ⟨Cursor.origin.past (before ++ gap ++ '{' :: (code ++ ['}'])), after⟩) := by
  have hgap : '{' ∉ walk.rest.takeWhile (· != '{') := by
    intro hm
    have hne := List.all_eq_true.1 List.all_takeWhile _ hm
    simp at hne
  have hsplit := (List.takeWhile_append_dropWhile (p := (· != '{')) (l := walk.rest)).symm
  cases hr : walk.rest.dropWhile (· != '{') with
  | nil =>
    rw [hr, List.append_nil] at hsplit
    refine .inl ⟨?_, next_of_noBrace hr⟩
    rw [hsplit]
    exact hgap
  | cons c inner =>
    obtain rfl := dropWhile_eq_cons_brace hr
    rw [hr] at hsplit
    cases hn : Region.closing? 1 none inner with
    | none => exact .inr (.inl ⟨_, inner, hsplit, hgap, hn, next_of_openBrace hr hc hn⟩)
    | some n =>
      have hnext := next_of_brace hr hc hn
      obtain ⟨code, after, rfl, rfl⟩ := Region.splitAt_of_closing? hn
      refine .inr (.inr ⟨_, code, after, hsplit, hgap, hn, hnext.trans ?_⟩)
      have htake : (code ++ '}' :: after).take (code.length + 1) = code ++ ['}'] := by
        rw [List.take_length_add_append]
        rfl
      have hdrop : (code ++ '}' :: after).drop (code.length + 1) = after := by
        rw [List.drop_length_add_append]
        rfl
      have hstop : ∀ k : Nat, k + 1 + (code.length + 1) = k + code.length + 2 := by omega
      simp only [htake, hdrop, hstop, Nat.add_sub_cancel, List.take_left', ← Cursor.past_append,
        List.append_assoc, List.singleton_append]

/-- A step keeps the walk on its document, and a region that it finds stands there. -/
theorem next_of_tracks (h : walk.Tracks document) :
    walk.next.2.Tracks document ∧ ∀ region, walk.next.1 = some (.ok region) →
      ∃ before after, region.StandsIn document before after := by
  obtain h | ⟨before, hd, hc⟩ := h
  · rw [next_of_noBrace (by rw [h]; rfl)]
    exact ⟨.inl rfl, fun region hf => nomatch hf⟩
  obtain ⟨-, hnext⟩ | ⟨gap, inner, -, -, -, hnext⟩ | ⟨gap, code, after, hr, -, -, hnext⟩ :=
    next_cases hc
  · rw [hnext]
    exact ⟨.inl rfl, fun region hf => nomatch hf⟩
  · rw [hnext]
    exact ⟨.inl rfl, fun region hf => nomatch hf⟩
  · have hdoc : document = before ++ gap ++ '{' :: code ++ '}' :: after := by
      rw [hd, hr]
      simp only [List.append_assoc, List.cons_append]
    rw [hnext]
    refine ⟨.inr ⟨before ++ gap ++ '{' :: (code ++ ['}']), ?_, rfl⟩, ?_⟩
    · rw [hdoc]
      simp only [List.append_assoc, List.cons_append, List.nil_append]
    · intro region hf
      obtain rfl := Except.ok.inj (Option.some.inj hf)
      exact ⟨before ++ gap, after, hdoc, rfl, rfl, rfl⟩

/-- However many steps it takes, the walk stands where it says. -/
theorem tracks_after (document : List Char) (n : Nat) :
    ((ofDocument document).after n).Tracks document := by
  induction n with
  | zero => exact tracks_ofDocument document
  | succ n ih => exact (next_of_tracks ih).1

end RegionWalk

/-- The regions of a document are regions that the walk finds. -/
theorem Region.foundIn_of_mem_all {document : List Char} {regions : List Region}
    (h : Region.all document = .ok regions) {region : Region} (hm : region ∈ regions) :
    region.FoundIn document := by
  suffices H : ∀ (walk : RegionWalk) (n : Nat) (found : List Region),
      walk = (RegionWalk.ofDocument document).after n → walk.regions = .ok found →
      region ∈ found → region.FoundIn document from H _ 0 regions rfl h hm
  intro walk
  induction walk using RegionWalk.regions.induct with
  | case1 walk ended hnext =>
    intro n found _ hr hm
    rw [RegionWalk.regions, hnext] at hr
    cases hr
    cases hm
  | case2 walk e ended hnext =>
    intro n found _ hr hm
    rw [RegionWalk.regions, hnext] at hr
    cases hr
  | case3 walk first after hnext ih =>
    intro n found hw hr hm
    rw [RegionWalk.regions, hnext] at hr
    cases hmore : after.regions with
    | error e => simp only [hmore, Except.map] at hr; cases hr
    | ok others =>
      simp only [hmore, Except.map] at hr
      cases hr
      cases hm with
      | head => exact ⟨n, by rw [← hw, hnext]⟩
      | tail _ hm =>
        refine ih (n + 1) others ?_ hmore hm
        rw [RegionWalk.after, ← hw, hnext]

/-- A region that the walk finds is a stretch of the document between two braces. -/
theorem Region.FoundIn.split {region : Region} {document : List Char}
    (h : region.FoundIn document) : ∃ before after, region.StandsIn document before after := by
  obtain ⟨n, hn⟩ := h
  exact (RegionWalk.next_of_tracks (RegionWalk.tracks_after document n)).2 region hn

/-! ## Offsets of a region -/

section
variable {region : Region} {document before after : List Char}

theorem Region.StandsIn.offset_eq (h : region.StandsIn document before after) :
    region.origin.offset = (before ++ ['{']).length := by
  rw [h.origin_eq, Origin.ofPlace, Cursor.offset_past]
  exact Nat.zero_add _

/-- The offsets of a region are offsets of the document. -/
theorem Region.StandsIn.fits (h : region.StandsIn document before after)
    (hb : Bounded document) : FitsWithin (some region.origin) region.code := by
  have hlength := congrArg List.length h.document_eq
  simp only [List.length_append, List.length_cons] at hlength
  rw [Bounded, hlength] at hb
  rw [FitsWithin, h.offset_eq, List.length_append, List.length_singleton]
  omega

end

end TemplateExpr
