import TweenScript.Decimal.Numeral

/-!
# Number literals in options

An option's number is a sign, digits with a point anywhere among or beside them, and an exponent,
only the digits being required; or the name of an infinity or of the number that is none, in any
case.
-/

namespace TweenScript

/-- The magnitude that a whole text spells, if it spells one. -/
def readMagnitude? (cs : List Char) : Option Float :=
  match String.map Char.toLower (String.ofList cs) with
  | "inf" | "infinity" => some (1 / 0)
  | "nan" => some (0 / 0)
  | _ =>
    let whole := cs.takeWhile Char.isDigit
    let (fraction, rest) := match cs.dropWhile Char.isDigit with
      | '.' :: rest => (rest.takeWhile Char.isDigit, rest.dropWhile Char.isDigit)
      | rest => ([], rest)
    if whole = [] ∧ fraction = [] then none
    else
      match rest, Numeral.readExponent rest with
      | [], _ => some (Numeral.mk false whole fraction none).toFloat
      | _, some (e, []) => some (Numeral.mk false whole fraction (some e)).toFloat
      | _, _ => none

/-- The number that a whole text spells, if it spells one. -/
def readFloat? (text : String) : Option Float :=
  match text.toList with
  | '-' :: cs => (readMagnitude? cs).map (- ·)
  | '+' :: cs => readMagnitude? cs
  | cs => readMagnitude? cs

end TweenScript
