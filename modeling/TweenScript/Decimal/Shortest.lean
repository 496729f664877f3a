import TweenScript.Decimal

/-!
# Shortest decimals

Of the decimals that round to a given positive floating-point number, `Decimal.shortest` is one on
the coarsest decimal grid, and there the nearest. All arithmetic is exact: the number is `m · 2 ^ q`,
and the decimals that round to it fill the interval that reaches half a gap to either side, its ends
included if and only if `m` is even.
-/

namespace TweenScript

/-- The number `significand · 2 ^ exponent`. -/
structure Binary where
  significand : Nat
  exponent : Int

namespace Binary

/-- The magnitude of a finite floating-point number. -/
def ofFloat (v : Float) : Binary :=
  let bits := v.toBits.toNat
  let fraction : Nat := bits % Nat.pow 2 52
  let field : Nat := bits / Nat.pow 2 52 % Nat.pow 2 11
  if field = 0 then ⟨fraction, -1074⟩ else ⟨Nat.pow 2 52 + fraction, field - 1075⟩

/-- Quarters of the gap above `b` from `b` down to the end of its interval: the gap below a power of
two is half the gap above, but for the least one. -/
def reachBelow (b : Binary) : Nat :=
  if b.significand = Nat.pow 2 52 ∧ -1074 < b.exponent then 1 else 2

end Binary

namespace Decimal

/-- Which of two equally near decimals is taken. -/
inductive Tie where
  | up
  | even
  deriving DecidableEq, Repr

/-- Whether of `n` and `n + 1`, equally near, the upper one is taken. -/
def Tie.takesUpper (t : Tie) (n : Nat) : Bool :=
  match t with
  | .up => true
  | .even => n % 2 == 1

/-- The multiple of `10 ^ k` nearest to `b` among those that round to `b`, as the multiplier. Only
the two multiples around `b` can be nearest. Both sides are scaled to whole numbers: `unit` is a
quarter of the gap above `b` and `step` is `10 ^ k`. -/
def onGrid (tie : Tie) (b : Binary) (k : Int) : Option Nat :=
  let unit := Nat.pow 2 (b.exponent - 2).toNat * Nat.pow 10 (-k).toNat
  let step := Nat.pow 2 (2 - b.exponent).toNat * Nat.pow 10 k.toNat
  let value := 4 * b.significand * unit
  let low := (4 * b.significand - b.reachBelow) * unit
  let high := (4 * b.significand + 2) * unit
  let rounds (n : Nat) : Bool :=
    if b.significand % 2 = 0 then low ≤ n * step && n * step ≤ high
    else low < n * step && n * step < high
  let n := value / step
  match rounds n, rounds (n + 1) with
  | false, false => none
  | true, false => some n
  | false, true => some (n + 1)
  | true, true =>
    match compare (2 * value) ((2 * n + 1) * step) with
    | .lt => some n
    | .gt => some (n + 1)
    | .eq => some (if tie.takesUpper n then n + 1 else n)

/-- A power of ten above `b`, at most one hundred times `b`: `30103 / 100000` is just above the
decimal logarithm of two. -/
def topExponent (b : Binary) : Int :=
  (b.significand.log2 + 1 + b.exponent) * 30103 / 100000 + 1

/-- The decimal that stands for `b`. Nineteen places below the top exponent some multiple always
rounds to `b`, for seventeen digits tell any two numbers apart. -/
def shortest (tie : Tie) (b : Binary) : Decimal :=
  let top := topExponent b
  let found := (List.range 20).findSome? fun (i : Nat) =>
    (onGrid tie b (top - i)).map fun n => (⟨n, top - i⟩ : Decimal)
  found.getD ⟨0, 0⟩

end Decimal

end TweenScript
