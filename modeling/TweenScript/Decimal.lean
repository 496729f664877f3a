/-!
# Decimal numbers

A decimal is a whole coefficient times a power of ten. `Decimal.toFloat` rounds it to the nearest
floating-point number, a tie going to the even significand.
-/

namespace TweenScript

/-- The number `coefficient · 10 ^ exponent`. -/
structure Decimal where
  coefficient : Nat
  exponent : Int
  deriving DecidableEq, Repr

namespace Decimal

/-- The decimal spelled by `whole`, a point, and `fraction`, both of digits. -/
def ofDigits (whole fraction : List Char) : Decimal :=
  ⟨Nat.ofDigitChars 10 (whole ++ fraction) 0, -fraction.length⟩

/-- The decimal digits of the coefficient, `0` having one. -/
def digits (d : Decimal) : List Char :=
  Nat.toDigits 10 d.coefficient

/-- The nearest floating-point number. A number of at least `10 ^ 309` is infinite and one below
`10 ^ (-324)` is zero, so only the exponents between need arithmetic. -/
def toFloat (d : Decimal) : Float :=
  if d.coefficient = 0 then 0
  else if 309 < d.digits.length + d.exponent then 1 / 0
  else if d.digits.length + d.exponent < -323 then 0
  else Float.ofScientific d.coefficient (d.exponent < 0) d.exponent.natAbs

/-- The floating-point number with the sign given. -/
def toSigned (negative : Bool) (d : Decimal) : Float :=
  if negative then -d.toFloat else d.toFloat

end Decimal

end TweenScript
