import TweenScript.Evaluation.Plan
import TweenScript.Evaluation.View
import TweenScript.Host

/-!
# Evaluation

Statements are evaluated for what they do to the host, from left to right, and the first fault ends
the evaluation. A body of a `Then` link is handed to the host with the scope of the chain and left
alone.
-/

namespace TweenScript

variable {σ ο τ : Type}

namespace Context

/-- The number view in a context. -/
def number (c : Context σ ο τ) (e : Expr) : StateM σ Float :=
  e.asNumber c.readVariable

/-- The truth view in a context. -/
def truth (c : Context σ ο τ) (e : Expr) : StateM σ Bool :=
  e.asTruth c.readVariable

/-- The values for a channel of width `w`. -/
def values (c : Context σ ο τ) (w : Nat) : Values → StateM σ (List Float)
  | .same e => return List.replicate w (← c.number e)
  | .each es => es.mapM c.number

/-- Target values, if a call has them. -/
def target (c : Context σ ο τ) (w : Nat) : Option Values → StateM σ (Option (List Float))
  | none => return none
  | some vs => return some (← c.values w vs)

/-- What a step tells a tween of a channel of width `w`. -/
def setting (c : Context σ ο τ) (w : Nat) : Step → StateM σ Setting
  | .start relative vs => return .start relative (← c.values w vs)
  | .delay e => return .delay (← c.number e)
  | .animate e => return .animate (← c.truth e)
  | .ease e => return .ease e
  | .andThen body => return .andThen ⟨body, c.scope⟩

/-- Takes the steps one after the other. -/
def configure (c : Context σ ο τ) (w : Nat) (t : τ) : List Step → StateM σ Unit
  | [] => return ()
  | step :: steps => do
    c.host.configure t (← c.setting w step)
    c.configure w t steps

/-- Makes the tween of a plan. -/
def make (c : Context σ ο τ) (p : Plan) : Action σ τ := do
  let w := p.channel.width
  let object ← c.resolveObject p.object
  let duration ← c.number p.duration
  let target ← c.target w p.target
  let t ← c.host.createTween object p.channel duration target
  c.configure w t p.steps
  return t

end Context

/-- Makes the tween of a chain. -/
def Chain.evaluate (c : Context σ ο τ) (chain : Chain) : Action σ τ := do
  c.make (← chain.plan)

/-- Switches an object on or off. -/
def evaluateSetActive (c : Context σ ο τ) : List Expr → Action σ Unit
  | [object, flag] => do
    let name ← objectName "Active" object
    let object ← c.resolveObject name
    let active ← c.truth flag
    c.host.setActive object active
  | args => throw (.arity "Active" "2" args.length)

/-- Does what an expression does as a statement; a value is found and dropped. -/
def Expr.evaluate (c : Context σ ο τ) : Expr → Action σ Unit
  | .tween chain => discard (chain.evaluate c)
  | .setActive args => evaluateSetActive c args
  | .callback => c.host.callback
  | e => do discard (c.number e)

mutual

/-- Does what a statement says. -/
def Statement.evaluate (c : Context σ ο τ) : Statement → Action σ Unit
  | .block body => evaluateAll c body
  | .when condition body => do if ← c.truth condition then body.evaluate c
  | .expr e => e.evaluate c

/-- Does what statements say, one after the other. -/
def evaluateAll (c : Context σ ο τ) : List Statement → Action σ Unit
  | [] => return ()
  | s :: body => do
    s.evaluate c
    evaluateAll c body

end

/-- Does what was left to do. -/
def Continuation.resume (h : Host σ ο τ) (k : Continuation) : Action σ Unit :=
  k.body.evaluate ⟨h, k.scope⟩

end TweenScript
