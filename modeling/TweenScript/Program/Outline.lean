import TweenScript.Decimal.Style
import TweenScript.Outline
import TweenScript.Program

/-!
# Outlines of programs

The outline of a program shows its tree. The links of a chain nest: the last one stands outermost, and
the call is the innermost target.
-/

namespace TweenScript

/-- The name of an operator in an outline. -/
def UnaryOp.name : UnaryOp → String
  | neg => "Neg"
  | not => "Not"

/-- The name of an operator in an outline. -/
def ArithmeticOp.name : ArithmeticOp → String
  | add => "Add"
  | sub => "Sub"
  | mul => "Mul"
  | div => "Div"

/-- The name of an operator in an outline. -/
def ComparisonOp.name : ComparisonOp → String
  | eq => "Eq"
  | ne => "Ne"
  | lt => "Lt"
  | gt => "Gt"
  | le => "Le"
  | ge => "Ge"

/-- The name of an operator in an outline. -/
def LogicalOp.name : LogicalOp → String
  | or => "Or"
  | and => "And"

/-- The name of an operator in an outline. -/
def BinaryOp.name : BinaryOp → String
  | arithmetic op => op.name
  | comparison op => op.name
  | logical op => op.name

/-- The outline of an easing. -/
def Ease.outline (e : Ease) : Outline :=
  .record "Ease" [.field "family" (.leaf e.family.name), .field "mode" (.leaf e.mode.name)]

/-- The outline of an argument list. -/
def Outline.arguments (args : List Outline) : Outline :=
  .wrapped "Arguments" (.list args)

mutual

/-- The outline of a statement. -/
def Statement.outline : Statement → Outline
  | .block body => .wrapped "Statements" (.list (Statement.outlines body))
  | .when condition body =>
    .record "If" [.field "cond" condition.outline, .field "body" body.outline]
  | .expr e => .wrapped "Expr" e.outline

/-- The outlines of statements. -/
def Statement.outlines : List Statement → List Outline
  | [] => []
  | s :: body => s.outline :: Statement.outlines body

/-- The outline of an expression. -/
def Expr.outline : Expr → Outline
  | .number v => .wrapped "Number" (.leaf (Style.literal.text v))
  | .variable name => .wrapped "Variable" (.quoted name)
  | .conditional c yes no =>
    .record "Conditional" [
      .field "cond" c.outline, .field "then" yes.outline, .field "otherwise" no.outline]
  | .unary op e => .record "Unary" [.field "op" (.leaf op.name), .field "expr" e.outline]
  | .binary op l r =>
    .record "Binary" [
      .field "op" (.leaf op.name), .field "left" l.outline, .field "right" r.outline]
  | .tween chain => .wrapped "Tween" chain.outline
  | .setActive args => .wrapped "SetActive" (.arguments (Expr.outlines args))
  | .callback => .leaf "Callback"

/-- The outlines of expressions. -/
def Expr.outlines : List Expr → List Outline
  | [] => []
  | e :: es => e.outline :: Expr.outlines es

/-- The outline of a chain. -/
def Chain.outline : Chain → Outline
  | ⟨channel, name, args, links⟩ =>
    Link.outlineAll
      (.record "Call" [
        .field "channel" (.leaf channel.name), .field "name" (.quoted name),
        .field "args" (.arguments (Expr.outlines args))])
      links

/-- The outline of `target` with links after it. -/
def Link.outlineAll (target : Outline) : List Link → Outline
  | [] => target
  | link :: links => Link.outlineAll (link.outline target) links

/-- The outline of `target` with a link after it. -/
def Link.outline (target : Outline) : Link → Outline
  | .start relative args =>
    .record "From" [
      .field "target" target, .field "args" (.arguments (Expr.outlines args)),
      .field "relative" (.leaf (toString relative))]
  | .delay args =>
    .record "Delay" [.field "target" target, .field "args" (.arguments (Expr.outlines args))]
  | .animate args =>
    .record "Animate" [.field "target" target, .field "args" (.arguments (Expr.outlines args))]
  | .ease e args =>
    .record "Ease" [
      .field "target" target, .field "ease" e.outline,
      .field "args" (.arguments (Expr.outlines args))]
  | .andThen body => .record "Then" [.field "target" target, .field "body" body.outline]

end

end TweenScript
