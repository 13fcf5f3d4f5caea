/-
  Numbers written in decimal. `Notation` holds what a format decides; the digits are the
  shortest that read back.
-/
import TemplateExpr.Decimal.Shortest

namespace TemplateExpr.Decimal

/-- The decisions of a number format. -/
structure Notation where
  /-- Which of two equally near decimals is written. -/
  tie : Tie
  /-- The exponents of the first digit for which no exponent is written. -/
  positional : Int → Bool
  /-- What follows the digits of a whole number without exponent. -/
  wholeEnd : String
  infinity : String
  notANumber : String

/-- The digits of a natural number in base ten. -/
def digitChars (n : Nat) : List Char :=
  Nat.toDigits 10 n

/-- The value with all its digits in place and no exponent. -/
def Scientific.positional (s : Scientific) (wholeEnd : String) : String :=
  let ds := digitChars s.digits
  if 0 ≤ s.exponent then
    String.ofList (ds ++ List.replicate s.exponent.toNat '0') ++ wholeEnd
  else
    let places := (-s.exponent).toNat
    if places < ds.length then
      String.ofList (ds.take (ds.length - places) ++ '.' :: ds.drop (ds.length - places))
    else
      String.ofList ('0' :: '.' :: (List.replicate (places - ds.length) '0' ++ ds))

/-- The exponent of the first digit. -/
def Scientific.leading (s : Scientific) : Int :=
  s.exponent + (digitChars s.digits).length - 1

/-- One digit, the others behind a point, and the exponent of the first with its sign. -/
def Scientific.withExponent (s : Scientific) : String :=
  let mantissa := match digitChars s.digits with
    | d :: e :: rest => d :: '.' :: e :: rest
    | short => short
  let power := if s.leading < 0 then "-" ++ toString s.leading.natAbs
    else "+" ++ toString s.leading.natAbs
  String.ofList mantissa ++ "e" ++ power

/-- The magnitude of a number. -/
def Notation.writeMagnitude (n : Notation) (x : Float) : String :=
  match Binary.ofFloat? x with
  | none => if x.isNaN then n.notANumber else n.infinity
  | some ⟨0, _⟩ => "0" ++ n.wholeEnd
  | some b =>
    let s := shortest n.tie b
    if n.positional s.leading then s.positional n.wholeEnd else s.withExponent

/-- The number in this notation. -/
def Notation.write (n : Notation) (x : Float) : String :=
  if isNegative x && !x.isNaN then "-" ++ n.writeMagnitude x else n.writeMagnitude x

end TemplateExpr.Decimal
