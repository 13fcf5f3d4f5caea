/-
  The exact value of a floating-point number, read off its bits: a whole number times a power
  of two, and the interval of real numbers that round to it.
-/
namespace TemplateExpr.Decimal

/-- The value `mantissa * 2 ^ exponent`. -/
structure Binary where
  mantissa : Nat
  exponent : Int
deriving DecidableEq, Repr

/-- The fraction is what the bits hold below this unit; eleven bits of exponent and the sign
    stand above it. -/
def fractionUnit : Nat := 1 <<< 52

/-- The sign bit is set. -/
def isNegative (x : Float) : Bool :=
  1 <<< 63 ≤ x.toBits.toNat

/-- The magnitude of a finite number; nothing for infinities and for what is no number. -/
def Binary.ofFloat? (x : Float) : Option Binary :=
  let bits : Nat := x.toBits.toNat
  let biased : Nat := bits / fractionUnit % 2048
  let fraction : Nat := bits % fractionUnit
  if biased = 2047 then none
  else if biased = 0 then some ⟨fraction, -1074⟩
  else some ⟨fraction + fractionUnit, (biased : Int) - 1075⟩

/-- The ends of the interval that rounds to a number, in quarters of the unit
    `2 ^ exponent`. The gap below a power of two is half the gap above it. -/
structure Interval where
  low : Nat
  middle : Nat
  high : Nat
  /-- Both ends round to the number. -/
  closed : Bool
deriving Repr

/-- An even mantissa wins the ties at both ends. -/
def Binary.interval (b : Binary) : Interval where
  low := if b.mantissa = fractionUnit ∧ -1074 < b.exponent then 4 * b.mantissa - 1
    else 4 * b.mantissa - 2
  middle := 4 * b.mantissa
  high := 4 * b.mantissa + 2
  closed := b.mantissa % 2 = 0

end TemplateExpr.Decimal
