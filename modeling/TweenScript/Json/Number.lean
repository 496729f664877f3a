import TweenScript.Json

/-!
# Numbers in JSON

A numeral is read in machine arithmetic: the digits that fit 64 bits make a whole number, which is
rounded and then multiplied or divided by a power of ten. For numerals of up to fifteen digits and
small exponents that is the nearest floating-point number; in general it may be off by a little.
-/

namespace TweenScript

namespace Numeral

/-- The largest number of 64 bits. -/
def wordLimit : Nat := Nat.pow 2 64 - 1

/-- Appends digits to `n` as long as the result fits 64 bits. The answer keeps the digits that are
left over. -/
def appendDigits (n : Nat) : List Char → Nat × List Char
  | [] => (n, [])
  | c :: cs =>
    let next := 10 * n + (c.toNat - '0'.toNat)
    if next ≤ wordLimit then appendDigits next cs else (n, c :: cs)

/-- A power of ten, rounded. -/
def powerOfTen (e : Nat) : Float :=
  Decimal.toFloat ⟨1, e⟩

/-- `f · 10 ^ e` by at most one multiplication; a division by `10 ^ 308` comes first as long as the
exponent is out of reach. There is no answer where the result is too large. -/
def scale (f : Float) (e : Int) : Option Float :=
  if e.natAbs ≤ 308 then
    if 0 ≤ e then
      let v := f * powerOfTen e.natAbs
      if v.isInf then none else some v
    else some (f / powerOfTen e.natAbs)
  else if f == 0 then some f
  else if 0 ≤ e then none
  else scale (f / powerOfTen 308) (e + 308)
termination_by e.natAbs
decreasing_by omega

/-- The floating-point number that a numeral is read as, if it is not too large. -/
def value? (n : Numeral) : Option Float :=
  let (significand, dropped) := appendDigits 0 n.whole
  let (significand, unread) := appendDigits significand n.fraction
  let exponent : Int := dropped.length + unread.length - n.fraction.length + n.exponent.getD 0
  (scale (Float.ofNat significand) exponent).map fun v => if n.negative then -v else v

end Numeral

end TweenScript
