/-
  The fewest decimal digits that read back to a given number.

  The points `d * 10 ^ g` with whole `d` form the decimal grid of the exponent `g`. On the
  coarsest grid that has a point in the rounding interval, that point is the shortest decimal,
  since a digit less means a coarser grid. If any point of a grid lies in the interval, one of
  the two neighbours of the number on that grid does, so only those are tried. All arithmetic
  is exact.
-/
import TemplateExpr.Decimal.Binary

namespace TemplateExpr.Decimal

/-- The value `digits * 10 ^ exponent`. -/
structure Scientific where
  digits : Nat
  exponent : Int
deriving DecidableEq, Repr

/-- Which of two equally near decimals is taken. -/
inductive Tie where
  | up
  | toEven
deriving DecidableEq, Repr

/-- The quotient of quarter units by `10 ^ g`, as a fraction: `2 ^ (e - 2) / 10 ^ g`. -/
def gridRatio (e g : Int) : Nat × Nat :=
  (Nat.pow 2 (e - 2).toNat * Nat.pow 10 (-g).toNat,
    Nat.pow 2 (2 - e).toNat * Nat.pow 10 g.toNat)

/-- The grid point `d` lies in the rounding interval. -/
def Interval.admits (range : Interval) (ratio : Nat × Nat) (d : Nat) : Bool :=
  if range.closed then
    range.low * ratio.1 ≤ d * ratio.2 && d * ratio.2 ≤ range.high * ratio.1
  else range.low * ratio.1 < d * ratio.2 && d * ratio.2 < range.high * ratio.1

/-- Of the grid points `below` and `below + 1` the nearer one, by their distances; of two
    equally near ones the one that the tie names. -/
def Tie.choose (tie : Tie) (below lowGap highGap : Nat) : Nat :=
  if lowGap < highGap then below
  else if highGap < lowGap then below + 1
  else match tie with
    | .up => below + 1
    | .toEven => if below % 2 = 0 then below else below + 1

/-- The neighbour of the number on the grid of exponent `g` that lies in the interval, and of
    two the nearer one. -/
def gridHit? (tie : Tie) (b : Binary) (g : Int) : Option Nat :=
  let ratio := gridRatio b.exponent g
  let middle := b.interval.middle * ratio.1
  let below := middle / ratio.2
  match b.interval.admits ratio below, b.interval.admits ratio (below + 1) with
  | true, true =>
    some (tie.choose below (middle - below * ratio.2) ((below + 1) * ratio.2 - middle))
  | true, false => some below
  | false, true => some (below + 1)
  | false, false => none

/-- The first hit on the grids of exponents `g`, `g - 1`, and so on. -/
def firstHit (tie : Tie) (b : Binary) : Nat → Int → Scientific
  | 0, g => ⟨0, g⟩
  | steps + 1, g =>
    match gridHit? tie b g with
    | some d => ⟨d, g⟩
    | none => firstHit tie b steps (g - 1)

/-- An exponent whose power of ten is above the value. -/
def topExponent (b : Binary) : Int :=
  (b.mantissa.log2 + 1 + b.exponent) * 30103 / 100000 + 1

/-- The shortest decimal that reads back to `b`, for `b` above zero. Seventeen digits always
    do, and `topExponent` is at most two above the exponent of the first digit. -/
def shortest (tie : Tie) (b : Binary) : Scientific :=
  firstHit tie b 21 (topExponent b)

end TemplateExpr.Decimal
