/-
  Numbers: decimal ones with an optional fraction and exponent, and whole numbers in base
  sixteen, eight and two behind `0x`, `0o` and `0b`.
-/
import TemplateExpr.Token.Basic
import TemplateExpr.Decimal.Reading

namespace TemplateExpr.Number
open Text

/-- How many digits the text begins with. -/
def digitCount (cs : List Char) : Nat :=
  (cs.takeWhile isDigit).length

/-- How long the fraction at the front is: a point and digits, which may be missing. -/
def fractionLength : List Char → Nat
  | '.' :: cs => 1 + digitCount cs
  | _ => 0

/-- How long the exponent mark at the front is: the letter and a sign. -/
def exponentMarkLength : List Char → Nat
  | c :: cs =>
    if c = 'e' ∨ c = 'E' then
      match cs with
      | d :: _ => if d = '+' ∨ d = '-' then 2 else 1
      | [] => 1
    else 0
  | [] => 0

/-- The parts of a decimal number at the front of a text, by their lengths. -/
structure Layout where
  whole : Nat
  fraction : Nat
  mark : Nat
  power : Nat
deriving DecidableEq, Repr

namespace Layout

def ofText (cs : List Char) : Layout :=
  let whole := digitCount cs
  let fraction := fractionLength (cs.drop whole)
  let mark := exponentMarkLength (cs.drop (whole + fraction))
  let power := if mark = 0 then 0 else digitCount (cs.drop (whole + fraction + mark))
  ⟨whole, fraction, mark, power⟩

def length (l : Layout) : Nat :=
  l.whole + l.fraction + l.mark + l.power

/-- The number that a text with these parts denotes. -/
def value (l : Layout) (cs : List Char) : Float :=
  let whole := cs.take l.whole
  let fraction := (cs.drop (l.whole + 1)).take (l.fraction - 1)
  let mark := (cs.drop (l.whole + l.fraction)).take l.mark
  let power := digitsValue 10 ((cs.drop (l.whole + l.fraction + l.mark)).take l.power)
  let exponent : Int := if mark.contains '-' then -power else power
  Decimal.nearest (digitsValue 10 (whole ++ fraction)) (exponent - fraction.length)

end Layout

/-- A decimal number, with the number of its characters. An exponent mark wants digits, and
    no name may begin right behind the number. -/
def readDecimal (cs : List Char) : Lexeme × Nat :=
  let layout := Layout.ofText cs
  if layout.mark ≠ 0 ∧ layout.power = 0 then (.fault .malformedNumber, layout.length)
  else if (cs.drop layout.length).head?.any isNameStart then
    (.fault .nameAfterNumber, layout.length)
  else (.number (layout.value cs), layout.length)

/-- The base that the letter behind a leading zero stands for. -/
def radix? : Char → Option Nat
  | 'x' | 'X' => some 16
  | 'o' | 'O' => some 8
  | 'b' | 'B' => some 2
  | _ => none

/-- A whole number in another base: `cs` is the text behind the zero and the letter. No part
    of a name may follow the digits. -/
def readRadix (radix : Nat) (cs : List Char) : Lexeme × Nat :=
  let digits := cs.takeWhile fun c => (digitBelow? radix c).isSome
  let length := 2 + digits.length
  if digits.isEmpty || (cs.drop digits.length).head?.any isNamePart then
    (.fault .malformedNumber, length)
  else (.number (Decimal.inRadix radix (digits.filterMap (digitBelow? radix))), length)

/-- A number at the front of a text that begins with a digit, or with a point and a digit. -/
def read (cs : List Char) : Lexeme × Nat :=
  match cs with
  | '0' :: c :: rest =>
    match radix? c with
    | some radix => readRadix radix rest
    | none => readDecimal cs
  | _ => readDecimal cs

end TemplateExpr.Number
