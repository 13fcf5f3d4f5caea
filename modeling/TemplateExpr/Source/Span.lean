/-
  Stretches of a text, and moving them into a larger text that the first one was cut from. Where
  the piece begins is told by the caller, in numbers of 64 bits, so that moving can overflow.

  * `wordSum_of_lt`: a sum that does not overflow.
  * `offsetWithin_some`, `offsetWithin_of_le`: the offsets of a piece that fits into its document
    all move by as much as the origin says.
  * `offsetWithin_le`, `offsetWithin_lt`: so they keep their order.
-/
import TemplateExpr.Source.Position

namespace TemplateExpr.Source

/-- The stretch from one place to another. -/
structure Span where
  start : Place
  stop : Place
deriving DecidableEq, Repr, Inhabited

/-- The empty stretch at a place. -/
def Span.at (place : Place) : Span :=
  ⟨place, place⟩

/-- From the start of the one span to the end of the other. -/
def Span.to (first last : Span) : Span :=
  ⟨first.start, last.stop⟩

@[simp] theorem Span.start_to (a b : Span) : (a.to b).start = a.start := rfl

@[simp] theorem Span.stop_to (a b : Span) : (a.to b).stop = b.stop := rfl

/-- The sum of two numbers of 64 bits, in 64 bits: a carry out of them is lost. -/
def wordSum (a b : Nat) : Nat :=
  (a + b) % UInt64.size

theorem wordSum_of_lt {a b : Nat} (h : a + b < UInt64.size) : wordSum a b = a + b :=
  Nat.mod_eq_of_lt h

/-- All offsets, lines and columns of the text are numbers of 64 bits, as are those of every text
    that fits into memory. -/
def Bounded (text : List Char) : Prop :=
  text.length + 1 < UInt64.size

instance (text : List Char) : Decidable (Bounded text) :=
  inferInstanceAs (Decidable (_ < _))

/-- Where a piece of text begins in the document around it: the number of characters and of
    lines before it, and the column of its first character. -/
structure Origin where
  offset : Nat
  line : Nat
  column : Nat
deriving DecidableEq, Repr, Inhabited

namespace Origin

/-- The origin of a piece that begins at a place of the document. -/
def ofPlace (place : Place) : Origin :=
  ⟨place.offset, place.position.line - 1, place.position.column⟩

/-- The origin of a piece that begins `offset` characters into the document. -/
def atOffset (text : List Char) (offset : Nat) : Origin :=
  ofPlace ⟨offset, positionAt text offset⟩

/-- Only the first line of a piece shares its line with the text before the piece, so only
    there the column moves. -/
def movePosition (origin : Origin) (p : Position) : Position :=
  ⟨wordSum p.line origin.line,
    if p.line = 1 then wordSum p.column origin.column else p.column⟩

/-- A place of the piece as a place of the document. -/
def movePlace (origin : Origin) (place : Place) : Place :=
  ⟨wordSum place.offset origin.offset, origin.movePosition place.position⟩

/-- A span of the piece as a span of the document. -/
def moveSpan (origin : Origin) (span : Span) : Span :=
  ⟨origin.movePlace span.start, origin.movePlace span.stop⟩

end Origin

/-- The offset in the document; with no origin the text is its own document. -/
def offsetWithin : Option Origin → Nat → Nat
  | none, offset => offset
  | some origin, offset => wordSum offset origin.offset

/-- The position in the document; with no origin the text is its own document. -/
def Position.within : Option Origin → Position → Position
  | none, p => p
  | some origin, p => origin.movePosition p

/-- The span in the document; with no origin the text is its own document. -/
def Span.within : Option Origin → Span → Span
  | none, span => span
  | some origin, span => origin.moveSpan span

@[simp] theorem Span.offset_start_within (origin : Option Origin) (span : Span) :
    (span.within origin).start.offset = offsetWithin origin span.start.offset := by
  cases origin <;> rfl

@[simp] theorem Span.offset_stop_within (origin : Option Origin) (span : Span) :
    (span.within origin).stop.offset = offsetWithin origin span.stop.offset := by
  cases origin <;> rfl

/-! ## Texts that fit into their documents -/

/-- No offset of the text overflows in the document; with no origin the text is its own
    document. -/
def FitsWithin : Option Origin → List Char → Prop
  | none, _ => True
  | some origin, text => text.length + origin.offset < UInt64.size

instance : (origin : Option Origin) → (text : List Char) → Decidable (FitsWithin origin text)
  | none, _ => inferInstanceAs (Decidable True)
  | some _, _ => inferInstanceAs (Decidable (_ < _))

theorem offsetWithin_some {origin : Origin} {text : List Char} (h : FitsWithin (some origin) text)
    {n : Nat} (hn : n ≤ text.length) : offsetWithin (some origin) n = n + origin.offset :=
  wordSum_of_lt (Nat.lt_of_le_of_lt (Nat.add_le_add_right hn _) h)

/-- The offsets of a text that fits into its document are counted from where it begins. -/
theorem offsetWithin_of_le {origin : Option Origin} {text : List Char} (h : FitsWithin origin text)
    {n : Nat} (hn : n ≤ text.length) : offsetWithin origin n = n + offsetWithin origin 0 := by
  cases origin with
  | none => rfl
  | some origin =>
    rw [offsetWithin_some h hn, offsetWithin_some h (Nat.zero_le _), Nat.zero_add]

section
variable {origin : Option Origin} {text : List Char} {m n : Nat}

theorem offsetWithin_le (h : FitsWithin origin text) (hmn : m ≤ n) (hn : n ≤ text.length) :
    offsetWithin origin m ≤ offsetWithin origin n := by
  rw [offsetWithin_of_le h hn, offsetWithin_of_le h (Nat.le_trans hmn hn)]
  exact Nat.add_le_add_right hmn _

theorem offsetWithin_lt (h : FitsWithin origin text) (hmn : m < n) (hn : n ≤ text.length) :
    offsetWithin origin m < offsetWithin origin n := by
  rw [offsetWithin_of_le h hn, offsetWithin_of_le h (Nat.le_trans (Nat.le_of_lt hmn) hn)]
  exact Nat.add_lt_add_right hmn _

end

end TemplateExpr.Source
