import TweenScript.Decimal

/-!
# Numerals

A numeral is a decimal as it is written: digits, perhaps a point and more digits, perhaps an
exponent. Two spellings of one exponent make the same numeral.
-/

namespace TweenScript

/-- A written decimal. No fraction means no point. -/
structure Numeral where
  negative : Bool
  whole : List Char
  fraction : List Char
  exponent : Option Int
  deriving DecidableEq, Repr

namespace Numeral

/-- The numeral of a natural number. -/
def ofNat (n : Nat) : Numeral :=
  ⟨false, Nat.toDigits 10 n, [], none⟩

/-- The magnitude that is written. -/
def decimal (n : Numeral) : Decimal :=
  let d := Decimal.ofDigits n.whole n.fraction
  ⟨d.coefficient, d.exponent + n.exponent.getD 0⟩

/-- The nearest floating-point number. -/
def toFloat (n : Numeral) : Float :=
  n.decimal.toSigned n.negative

/-- The text of a numeral, with `plus` before the digits of an exponent that is not negative. -/
def text (plus : String) (n : Numeral) : List Char :=
  let sign := if n.negative then ['-'] else []
  let fraction := if n.fraction = [] then [] else '.' :: n.fraction
  let exponent := match n.exponent with
    | none => []
    | some e => 'e' :: (if e < 0 then ['-'] else plus.toList) ++ Nat.toDigits 10 e.natAbs
  sign ++ n.whole ++ fraction ++ exponent

/-! ## Reading -/

/-- The exponent at the front of a text and what is left, if there is a whole one. -/
def readExponent : List Char → Option (Int × List Char)
  | e :: cs =>
    if e = 'e' ∨ e = 'E' then
      let (negative, cs) := match cs with
        | '-' :: cs => (true, cs)
        | '+' :: cs => (false, cs)
        | cs => (false, cs)
      let digits := cs.takeWhile Char.isDigit
      let size : Int := Nat.ofDigitChars 10 digits 0
      if digits = [] then none
      else some (if negative then -size else size, cs.dropWhile Char.isDigit)
    else none
  | [] => none

end Numeral

end TweenScript
