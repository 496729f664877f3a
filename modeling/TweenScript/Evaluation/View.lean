import TweenScript.Program

/-!
# Views of expressions

Every expression has a value as a number and a value as a truth value. An operator is evaluated in
the view that fits it and its value carried over: a number is true if it is positive, and truth
counts as `1`. The right operand of a logical operator and the branch of a conditional that is not
taken are not looked at. What acts on the host has no value of its own, and its views do nothing.
-/

namespace TweenScript

/-- The value of an arithmetic operator. -/
def ArithmeticOp.apply : ArithmeticOp → Float → Float → Float
  | add, a, b => a + b
  | sub, a, b => a - b
  | mul, a, b => a * b
  | div, a, b => a / b

/-- How near two numbers are that count as equal. -/
def equalityTolerance : Float := 1e-6

/-- Whether two numbers count as equal. -/
def nearlyEqual (a b : Float) : Bool :=
  (a - b).abs < equalityTolerance

/-- The value of a comparison. -/
def ComparisonOp.holds : ComparisonOp → Float → Float → Bool
  | eq, a, b => nearlyEqual a b
  | ne, a, b => !nearlyEqual a b
  | lt, a, b => a < b
  | gt, a, b => a > b
  | le, a, b => a ≤ b
  | ge, a, b => a ≥ b

/-- A truth value as a number. -/
def indicator (b : Bool) : Float :=
  if b then 1 else 0

/-- A number as a truth value. -/
def isPositive (v : Float) : Bool :=
  0 < v

namespace Expr

variable {m : Type → Type} [Monad m]

mutual

/-- The value as a number, variables being looked up by `read`; an unknown variable is zero. -/
def asNumber (read : String → m (Option Float)) : Expr → m Float
  | .number v => return v
  | .variable name => return (← read name).getD 0
  | .conditional c yes no => do
    if ← asTruth read c then asNumber read yes else asNumber read no
  | .unary .neg e => return -(← asNumber read e)
  | .unary .not e => return indicator (!(← asTruth read e))
  | .binary (.arithmetic op) l r => do
    let a ← asNumber read l
    let b ← asNumber read r
    return op.apply a b
  | .binary (.comparison op) l r => do
    let a ← asNumber read l
    let b ← asNumber read r
    return indicator (op.holds a b)
  | .binary (.logical .or) l r => do
    if ← asTruth read l then return indicator true else return indicator (← asTruth read r)
  | .binary (.logical .and) l r => do
    if ← asTruth read l then return indicator (← asTruth read r) else return indicator false
  | .tween _ | .setActive _ | .callback => return 0

/-- The value as a truth value. -/
def asTruth (read : String → m (Option Float)) : Expr → m Bool
  | .number v => return isPositive v
  | .variable name => return isPositive ((← read name).getD 0)
  | .conditional c yes no => do
    if ← asTruth read c then return isPositive (← asNumber read yes)
    else return isPositive (← asNumber read no)
  | .unary .neg e => return isPositive (-(← asNumber read e))
  | .unary .not e => return !(← asTruth read e)
  | .binary (.arithmetic op) l r => do
    let a ← asNumber read l
    let b ← asNumber read r
    return isPositive (op.apply a b)
  | .binary (.comparison op) l r => do
    let a ← asNumber read l
    let b ← asNumber read r
    return op.holds a b
  | .binary (.logical .or) l r => do
    if ← asTruth read l then return true else asTruth read r
  | .binary (.logical .and) l r => do
    if ← asTruth read l then asTruth read r else return false
  | .tween _ | .setActive _ | .callback => return true

end

end Expr

end TweenScript
