import TweenScript.Fault
import TweenScript.Program

/-!
# Plans of chains

A plan is a chain whose argument counts and object name are right. `Chain.check` goes through a chain
from its last link to its call: a link whose count is the same on all channels is checked before the
links in front of it, start values are checked behind them, for the channel that they come with.
`Chain.plan` finds the plan of a chain that passes. Once there is a plan, only the host can refuse.
-/

namespace TweenScript

/-- Expressions for the values of a channel: one that stands for all of them, or one each. -/
inductive Values where
  | same (e : Expr)
  | each (es : List Expr)

/-- The values that a list of expressions gives for a channel of width `w`. -/
def Values.ofList? (w : Nat) : List Expr → Option Values
  | [e] => some (.same e)
  | es => if es.length = w then some (.each es) else none

/-- A link whose argument count is right. -/
inductive Step where
  | start (relative : Bool) (values : Values)
  | delay (seconds : Expr)
  | animate (flag : Expr)
  | ease (e : Ease)
  | andThen (body : Statement)

/-- A chain whose counts and object name are right. -/
structure Plan where
  channel : Channel
  object : String
  duration : Expr
  target : Option Values
  steps : List Step

/-! ## Counts -/

/-- The counts a call accepts for a channel of width `w`. -/
def callCounts (w : Nat) : String :=
  if w = 1 then "2 or 3" else "2, 3 or " ++ toString (w + 2)

/-- The counts that start values accept for a channel of width `w`. -/
def startCounts (w : Nat) : String :=
  if w = 1 then "1" else "1 or " ++ toString w

/-- The object name that an argument is. -/
def objectName (call : String) : Expr → Except Fault String
  | .variable name => .ok name
  | _ => .error (.argument (.noObjectName call))

/-- The one argument of a link. -/
def onlyArgument (link : String) : List Expr → Except Fault Expr
  | [e] => .ok e
  | args => .error (.arity link "1" args.length)

/-- A link without arguments has none. -/
def noArguments (link : String) (args : List Expr) : Except Fault Unit :=
  if args = [] then .ok () else .error (.arity link "0" args.length)

/-- The start values for a channel of width `w`. -/
def startValues (w : Nat) (relative : Bool) (args : List Expr) : Except Fault Values :=
  match Values.ofList? w args with
  | some values => .ok values
  | none =>
    .error (.arity (if relative then "FromRelative" else "From") (startCounts w) args.length)

/-- The step that a link makes for a channel of width `w`. -/
def Link.step (w : Nat) : Link → Except Fault Step
  | start relative args => .start relative <$> startValues w relative args
  | delay args => .delay <$> onlyArgument "Delay" args
  | animate args => .animate <$> onlyArgument "Animate" args
  | ease e args => (fun _ => .ease e) <$> noArguments e.name args
  | andThen body => .ok (.andThen body)

/-- The plan of a call without its links. -/
def Chain.planCall (c : Chain) : Except Fault Plan :=
  let refuse := .error (.arity c.name (callCounts c.channel.width) c.args.length)
  match c.args with
  | object :: duration :: values =>
    let target? :=
      if values.isEmpty then some none else (Values.ofList? c.channel.width values).map some
    match target? with
    | some target => do
      let object ← objectName c.name object
      return ⟨c.channel, object, duration, target, []⟩
    | none => refuse
  | _ => refuse

/-- Checks the links `before`, the last of which comes first, and the call, whose channel is
returned. -/
def Chain.checkBehind (c : Chain) : List Link → Except Fault Channel
  | [] => Plan.channel <$> c.planCall
  | .start relative args :: before => do
    let channel ← c.checkBehind before
    discard (startValues channel.width relative args)
    return channel
  | .delay args :: before => do
    discard (onlyArgument "Delay" args)
    c.checkBehind before
  | .animate args :: before => do
    discard (onlyArgument "Animate" args)
    c.checkBehind before
  | .ease e args :: before => do
    noArguments e.name args
    c.checkBehind before
  | .andThen _ :: before => c.checkBehind before

/-- Checks a chain and returns its channel. -/
def Chain.check (c : Chain) : Except Fault Channel :=
  c.checkBehind c.links.reverse

/-- The plan of a chain. Behind the check there always is one. -/
def Chain.plan (c : Chain) : Except Fault Plan := do
  let channel ← c.check
  let call ← c.planCall
  let steps ← c.links.mapM (Link.step channel.width)
  return { call with steps }

end TweenScript
