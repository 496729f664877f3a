import TweenScript.Decimal.Numeral
import TweenScript.Decimal.Shortest

/-!
# Writing floating-point numbers

A style says where positional notation ends and how each notation looks. The digits are always the
shortest ones that read back.
-/

namespace TweenScript

/-- How floating-point numbers are written. -/
structure Style where
  /-- Which of two equally near digit strings is written. -/
  tie : Decimal.Tie
  /-- The powers of ten from the first to below the second are written in positional notation; all of
  them are if there are no such bounds. -/
  positional : Option (Int × Int)
  /-- The fraction of a whole number in positional notation. -/
  wholeFraction : List Char
  /-- What stands before the digits of an exponent that is not negative. -/
  plus : String

namespace Style

/-- Whether numbers whose first digit counts `10 ^ power` are written in positional notation. -/
def isPositional (st : Style) (power : Int) : Bool :=
  match st.positional with
  | none => true
  | some (first, limit) => first ≤ power && power < limit

/-- Positional notation: the last digit of `ds` counts `10 ^ exponent`. -/
def positionalNumeral (st : Style) (negative : Bool) (ds : List Char) (exponent : Int) : Numeral :=
  if 0 ≤ exponent then ⟨negative, ds ++ List.replicate exponent.toNat '0', st.wholeFraction, none⟩
  else
    let places := exponent.natAbs
    let padded := List.replicate (places + 1 - ds.length) '0' ++ ds
    ⟨negative, padded.take (padded.length - places), padded.drop (padded.length - places), none⟩

/-- Scientific notation: the first digit of `ds` counts `10 ^ power`. -/
def scientificNumeral (negative : Bool) (ds : List Char) (power : Int) : Numeral :=
  ⟨negative, ds.take 1, ds.drop 1, some power⟩

/-- Whether the sign bit is set. -/
def isNegative (v : Float) : Bool :=
  Nat.pow 2 63 ≤ v.toBits.toNat

/-- The numeral of a finite number. -/
def numeral (st : Style) (v : Float) : Numeral :=
  let b := Binary.ofFloat v
  if b.significand = 0 then ⟨isNegative v, ['0'], st.wholeFraction, none⟩
  else
    let d := Decimal.shortest st.tie b
    let power : Int := d.digits.length + d.exponent - 1
    if st.isPositional power then st.positionalNumeral (isNegative v) d.digits d.exponent
    else scientificNumeral (isNegative v) d.digits power

/-- The text of any floating-point number. -/
def text (st : Style) (v : Float) : String :=
  if v.isNaN then "NaN"
  else if v.isFinite then String.ofList ((st.numeral v).text st.plus)
  else if isNegative v then "-inf" else "inf"

/-- The style of values in messages and answers: never an exponent. -/
def plain : Style where
  tie := .up
  positional := none
  wholeFraction := []
  plus := ""

/-- The style of literals in a printed tree: whole numbers have a point too. -/
def literal : Style where
  tie := .up
  positional := some (-4, 16)
  wholeFraction := ['0']
  plus := ""

/-- The style of numbers in JSON. -/
def json : Style where
  tie := .even
  positional := some (-5, 16)
  wholeFraction := ['0']
  plus := "+"

end Style

end TweenScript
