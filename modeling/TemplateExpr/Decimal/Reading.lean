/-
  The floating-point number nearest to a decimal, and numbers read digit by digit in another
  base.
-/
import TemplateExpr.Text.CharClass

namespace TemplateExpr.Decimal

/-- The number nearest to `digits * 10 ^ exponent`. Powers of ten far outside the range of
    finite numbers are not computed: there the answer is zero or infinity. -/
def nearest (digits : Nat) (exponent : Int) : Float :=
  let count : Int := (Nat.toDigits 10 digits).length
  if digits = 0 ∨ exponent + count < -400 then Float.ofScientific 0 false 0
  else if 400 < exponent then Float.ofScientific 1 false 400
  else Float.ofScientific digits (exponent < 0) exponent.natAbs

/-- The number that digits of base `radix` write, each step of the sum rounded. -/
def inRadix (radix : Nat) (digits : List Nat) : Float :=
  digits.foldl (fun sum d => sum * Float.ofNat radix + Float.ofNat d) (Float.ofNat 0)

end TemplateExpr.Decimal
