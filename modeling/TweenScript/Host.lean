import TweenScript.Fault
import TweenScript.Program
import TweenScript.Scope

/-!
# Hosts

A host owns the objects, the variables and the tweens that a script is about. Everything a script
does goes through the operations of `Host`; a context is a host seen through a scope.
-/

namespace TweenScript

/-- What works on a state of type `σ` and may end in a fault, which keeps the effects before it. -/
abbrev Action (σ : Type) : Type → Type :=
  ExceptT Fault (StateM σ)

/-- What is left to do when a tween completes, with the scope it is done in. -/
structure Continuation where
  body : Statement
  scope : Scope

/-- What a link of a chain tells a tween. -/
inductive Setting where
  /-- Start values, one for each value of the channel. -/
  | start (relative : Bool) (values : List Float)
  | delay (seconds : Float)
  /-- Whether the tween plays at all. -/
  | animate (on : Bool)
  | ease (e : Ease)
  | andThen (k : Continuation)

/-- The operations of a host with states of type `σ`, objects of type `ο` and tweens of type `τ`. -/
structure Host (σ ο τ : Type) where
  resolveObject : String → Action σ ο
  readVariable : String → StateM σ (Option Float)
  setActive : ο → Bool → StateM σ Unit
  callback : StateM σ Unit
  /-- Makes a tween of an object's channel over a duration in seconds, towards target values or
  towards what the object is. -/
  createTween : ο → Channel → Float → Option (List Float) → Action σ τ
  configure : τ → Setting → StateM σ Unit

/-- A host seen through a scope. -/
structure Context (σ ο τ : Type) where
  host : Host σ ο τ
  scope : Scope

namespace Context

variable {σ ο τ : Type}

/-- The object a name stands for. -/
def resolveObject (c : Context σ ο τ) (name : String) : Action σ ο :=
  c.host.resolveObject (c.scope.path name)

/-- The value of a variable: the host's, or else the scope's. The host sees every read. -/
def readVariable (c : Context σ ο τ) (name : String) : StateM σ (Option Float) := do
  let v ← c.host.readVariable name
  return v.or (c.scope.value? name)

/-- The context inside one more table. -/
def within (c : Context σ ο τ) (t : NameTable) : Context σ ο τ :=
  { c with scope := t :: c.scope }

end Context

end TweenScript
