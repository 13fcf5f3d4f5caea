/-
  Regions: the stretches of a document between a brace and its partner. A brace inside quotes
  does not count, and inside quotes a backslash takes the next character with it.

  A document can be asked for the region at an offset (`Region.at?`), or walked from region to
  region (`RegionWalk.next`); the walk keeps its position as it goes.
-/
import TemplateExpr.SyntaxError

namespace TemplateExpr
open Source Text

/-- An expression cut out of a document. -/
structure Region where
  /-- The characters between the braces. -/
  code : List Char
  /-- Where they begin in the document. -/
  origin : Origin
  /-- The offset of the opening brace. -/
  start : Nat
  /-- The offset behind the closing brace. -/
  stop : Nat
deriving DecidableEq, Repr, Inhabited

namespace Region

/-- How many characters there are up to the brace that closes `depth` open ones, and with it.
    `quote` is the quote that is open. -/
def closing? : Nat → Option Char → List Char → Option Nat
  | _, _, [] => none
  | depth, some quote, '\\' :: _ :: cs => (closing? depth (some quote) cs).map (· + 2)
  | depth, some quote, c :: cs =>
    if c = '\\' then none
    else (closing? depth (if c = quote then none else some quote) cs).map (· + 1)
  | depth, none, c :: cs =>
    if isQuote c then (closing? depth (some c) cs).map (· + 1)
    else if c = '{' then (closing? (depth + 1) none cs).map (· + 1)
    else if c = '}' then
      if depth ≤ 1 then some 1 else (closing? (depth - 1) none cs).map (· + 1)
    else (closing? depth none cs).map (· + 1)

/-- The region whose opening brace stands at the offset; nothing if there is no brace. -/
def at? (document : List Char) (offset : Nat) : Except SyntaxError (Option Region) :=
  match document.drop offset with
  | '{' :: inner =>
    match closing? 1 none inner with
    | some n =>
      .ok (some ⟨inner.take (n - 1), Origin.atOffset document (offset + 1), offset,
        offset + 1 + n⟩)
    | none => .error ⟨.openBrace, ⟨offset, positionAt document offset⟩, none⟩
  | _ => .ok none

end Region

/-- A walk over a document: where it stands, and the text that is left. A walk that is over
    has no text left. -/
structure RegionWalk where
  cursor : Cursor
  rest : List Char
deriving DecidableEq, Repr, Inhabited

namespace RegionWalk

/-- The walk before its first step. -/
def ofDocument (document : List Char) : RegionWalk :=
  ⟨Cursor.origin, document⟩

/-- The walk that is over. -/
def finished (walk : RegionWalk) : RegionWalk :=
  { walk with rest := [] }

/-- The next region, or the error at a brace without partner, which ends the walk. -/
def next (walk : RegionWalk) : Option (Except SyntaxError Region) × RegionWalk :=
  let before := walk.rest.takeWhile (· != '{')
  let brace := walk.cursor.past before
  match walk.rest.dropWhile (· != '{') with
  | [] => (none, walk.finished)
  | c :: inner =>
    match Region.closing? 1 none inner with
    | none => (some (.error ⟨.openBrace, brace.place, none⟩), walk.finished)
    | some n =>
      let opened := brace.step c
      let code := inner.take (n - 1)
      let start := brace.place.offset
      (some (.ok ⟨code, Origin.ofPlace opened.place, start, start + 1 + n⟩),
        ⟨opened.past (inner.take n), inner.drop n⟩)

/-- A step that finds a region leaves less of the text. -/
theorem length_next_lt {walk after : RegionWalk} {region : Region}
    (h : walk.next = (some (.ok region), after)) :
    after.rest.length < walk.rest.length := by
  have hd := (List.dropWhile_sublist (l := walk.rest) (· != '{')).length_le
  unfold next at h
  split at h
  · simp at h
  · next c inner hr =>
    rw [hr, List.length_cons] at hd
    split at h
    · simp at h
    · next n hn =>
      simp only [Prod.mk.injEq] at h
      rw [← h.2, List.length_drop]
      omega

/-- All regions from here on, or the first error. -/
def regions (walk : RegionWalk) : Except SyntaxError (List Region) :=
  match _h : walk.next with
  | (none, _) => .ok []
  | (some (.error e), _) => .error e
  | (some (.ok region), after) => (regions after).map (region :: ·)
termination_by walk.rest.length
decreasing_by exact length_next_lt _h

end RegionWalk

/-- The regions of a document. -/
def Region.all (document : List Char) : Except SyntaxError (List Region) :=
  (RegionWalk.ofDocument document).regions

end TemplateExpr
