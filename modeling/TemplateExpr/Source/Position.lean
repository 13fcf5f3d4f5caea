/-
  Where a character stands in a text: its line and column, and the walk over a text that finds
  them. A carriage return and the line feed after it end one line, not two.

  * `Cursor.past_append`: walking over two pieces is walking over the first, then the second.
  * `Cursor.offset_past`: the offset counts the characters walked over.
-/
import TemplateExpr.Text.CharClass

namespace TemplateExpr.Source

/-- A line, counted from one, and a column, counted from zero. -/
structure Position where
  line : Nat
  column : Nat
deriving DecidableEq, Repr, Inhabited

/-- The position of the first character of a text. -/
def Position.origin : Position :=
  ⟨1, 0⟩

/-- The position after the character `c`, when `previous` stands before `c`. -/
def Position.after (p : Position) (previous c : Char) : Position :=
  if c = '\n' ∧ previous = '\r' then p
  else if Text.isNewline c then ⟨p.line + 1, 0⟩
  else ⟨p.line, p.column + 1⟩

/-- Line and column, with a colon between them. -/
def Position.render (p : Position) : String :=
  toString p.line ++ ":" ++ toString p.column

/-- A point of a text: how many characters stand before it, and its position. -/
structure Place where
  offset : Nat
  position : Position
deriving DecidableEq, Repr, Inhabited

/-- The start of a text. -/
def Place.origin : Place :=
  ⟨0, Position.origin⟩

/-- A place and the character before it; at the start of a text that is the null character. -/
structure Cursor where
  place : Place
  previous : Char
deriving DecidableEq, Repr, Inhabited

namespace Cursor

/-- The cursor before the first character. -/
def origin : Cursor :=
  ⟨Place.origin, '\x00'⟩

/-- The cursor behind one more character. -/
def step (cursor : Cursor) (c : Char) : Cursor :=
  ⟨⟨cursor.place.offset + 1, cursor.place.position.after cursor.previous c⟩, c⟩

/-- The cursor behind all of `cs`. -/
def past (cursor : Cursor) (cs : List Char) : Cursor :=
  cs.foldl step cursor

@[simp] theorem past_nil (cursor : Cursor) : cursor.past [] = cursor := rfl

@[simp] theorem past_cons (cursor : Cursor) (c : Char) (cs : List Char) :
    cursor.past (c :: cs) = (cursor.step c).past cs := rfl

theorem past_append (cursor : Cursor) (cs ds : List Char) :
    cursor.past (cs ++ ds) = (cursor.past cs).past ds := by
  simp [past]

theorem offset_past (cursor : Cursor) (cs : List Char) :
    (cursor.past cs).place.offset = cursor.place.offset + cs.length := by
  induction cs generalizing cursor with
  | nil => rfl
  | cons c cs ih => rw [past_cons, ih]; simp [step]; omega

end Cursor

/-- The position `offset` characters into the text. An offset past the end gives the end. -/
def positionAt (text : List Char) (offset : Nat) : Position :=
  (Cursor.origin.past (text.take offset)).place.position

/-- The place behind the last character of a text. -/
def Place.endOf (text : List Char) : Place :=
  ⟨text.length, positionAt text text.length⟩

theorem positionAt_of_length_le {text : List Char} {offset : Nat} (h : text.length ≤ offset) :
    positionAt text offset = positionAt text text.length := by
  simp [positionAt, List.take_of_length_le h]

end TemplateExpr.Source
