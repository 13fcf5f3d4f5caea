/-
  What stands between tokens: blank space, comments to the end of the line, and comments
  between `/*` and `*/`.

  * `Trivia.length_le`: trivia is a part of the text it is read from.
-/
import TemplateExpr.Text.CharClass

namespace TemplateExpr
open Text

/-- The trivia at the front of a text. -/
structure Trivia where
  /-- How many characters it has. -/
  length : Nat
  /-- A line ends inside it. -/
  newline : Bool
  /-- A comment without an end follows it. -/
  openComment : Bool
deriving DecidableEq, Repr, Inhabited

namespace Trivia

def empty : Trivia :=
  ⟨0, false, false⟩

/-- The same trivia with `n` more characters in front, some of which may end a line. -/
def behind (trivia : Trivia) (n : Nat) (newline : Bool) : Trivia :=
  ⟨n + trivia.length, newline || trivia.newline, trivia.openComment⟩

/-- How many characters there are up to the first `*/`, and with it. -/
def closing? : List Char → Option Nat
  | [] => none
  | '*' :: '/' :: _ => some 2
  | _ :: cs => (closing? cs).map (· + 1)

/-- How many characters the line still has. -/
def lineLength (cs : List Char) : Nat :=
  (cs.takeWhile fun c => !isNewline c).length

/-- The longest trivia at the front of the text. -/
def ofText : List Char → Trivia
  | [] => empty
  | '/' :: '/' :: cs => (ofText (cs.drop (lineLength cs))).behind (2 + lineLength cs) false
  | '/' :: '*' :: cs =>
    match closing? cs with
    | some n => (ofText (cs.drop n)).behind (2 + n) ((cs.take n).any isNewline)
    | none => ⟨0, false, true⟩
  | c :: cs => if isSpace c then (ofText cs).behind 1 (isNewline c) else empty
termination_by cs => cs.length
decreasing_by all_goals simp only [List.length_cons, List.length_drop]; omega

theorem closing?_le {cs : List Char} {n : Nat} (h : closing? cs = some n) : n ≤ cs.length := by
  induction cs using closing?.induct generalizing n with
  | case1 => simp [closing?] at h
  | case2 => simp [closing?] at h; simp; omega
  | case3 c cs hc ih =>
    rw [closing?] at h
    · obtain ⟨m, hm, rfl⟩ := Option.map_eq_some_iff.1 h
      simpa using ih hm
    · exact hc

theorem lineLength_le (cs : List Char) : lineLength cs ≤ cs.length :=
  (List.takeWhile_sublist _).length_le

theorem length_le (cs : List Char) : (ofText cs).length ≤ cs.length := by
  induction cs using ofText.induct with
  | case1 => simp [ofText, empty]
  | case2 cs ih =>
    have := lineLength_le cs
    rw [ofText]; simp [behind] at ih ⊢; omega
  | case3 cs n hn ih =>
    have := closing?_le hn
    rw [ofText]; simp [hn, behind] at ih ⊢; omega
  | case4 cs hn => rw [ofText]; simp [hn]
  | case5 c cs h1 h2 hc ih =>
    rw [ofText] <;> simp_all [behind]; omega
  | case6 c cs h1 h2 hc => rw [ofText] <;> simp_all [empty]

end Trivia

end TemplateExpr
