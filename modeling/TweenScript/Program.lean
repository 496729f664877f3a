import TweenScript.Channel
import TweenScript.Ease

/-!
# Programs

A script is a statement; a script of several statements is a block of them. Expressions may hold
tween chains, and a chain's `Then` links hold statements again, so the four kinds of tree are defined
together. Argument counts are no part of the shape: they are checked when a call is evaluated.
-/

namespace TweenScript

/-- Operators with one operand. -/
inductive UnaryOp where
  | neg
  | not
  deriving DecidableEq, Repr

/-- Operators from numbers to numbers. -/
inductive ArithmeticOp where
  | add
  | sub
  | mul
  | div
  deriving DecidableEq, Repr

/-- Operators from numbers to truth values. -/
inductive ComparisonOp where
  | eq
  | ne
  | lt
  | gt
  | le
  | ge
  deriving DecidableEq, Repr

/-- Operators from truth values to truth values. -/
inductive LogicalOp where
  | or
  | and
  deriving DecidableEq, Repr

/-- Operators with two operands. -/
inductive BinaryOp where
  | arithmetic (op : ArithmeticOp)
  | comparison (op : ComparisonOp)
  | logical (op : LogicalOp)
  deriving DecidableEq, Repr

mutual

/-- Something to do. -/
inductive Statement where
  | block (body : List Statement)
  /-- The body runs if the condition holds. -/
  | when (condition : Expr) (body : Statement)
  | expr (e : Expr)

/-- Something with a value. Evaluated as statements, `tween`, `setActive` and `callback` act on the
host. -/
inductive Expr where
  | number (value : Float)
  | variable (name : String)
  | conditional (condition yes no : Expr)
  | unary (op : UnaryOp) (operand : Expr)
  | binary (op : BinaryOp) (left right : Expr)
  | tween (chain : Chain)
  | setActive (args : List Expr)
  | callback

/-- A tween call with the links that configure it, in source order. -/
structure Chain where
  channel : Channel
  /-- The call name as it was written. -/
  name : String
  args : List Expr
  links : List Link

/-- One link of a chain. -/
inductive Link where
  /-- Start values, absolute or as offsets from the current ones. -/
  | start (relative : Bool) (args : List Expr)
  | delay (args : List Expr)
  | animate (args : List Expr)
  | ease (e : Ease) (args : List Expr)
  /-- What runs when the tween completes. -/
  | andThen (body : Statement)

end

/-- The statement that a sequence of statements makes: a single one is itself. -/
def Statement.ofList : List Statement → Statement
  | [s] => s
  | body => .block body

end TweenScript
