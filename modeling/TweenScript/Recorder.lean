import Std.Data.TreeMap
import Std.Data.TreeSet
import TweenScript.Evaluation

/-!
# Recorders

A recorder is a host that animates nothing: it logs what a script asks for. Objects are paths, tweens
are numbered in the order they are made, and continuations wait until somebody says that their tween
is complete.
-/

namespace TweenScript

/-- Start values of a tween, as they are or as offsets. -/
structure StartValues where
  values : List Float
  relative : Bool
  deriving DecidableEq

/-- What is known of a tween. -/
structure TweenRecord where
  id : Nat
  object : String
  channel : Channel
  duration : Float
  target : Option (List Float)
  start : Option StartValues := none
  delay : Float := 0
  animate : Bool := true
  ease : Option Ease := none
  /-- How many continuations were registered so far. -/
  continuations : Nat := 0
  completed : Bool := false
  deriving DecidableEq

/-- What happened to a recorder. -/
inductive Event where
  | tween (id : Nat)
  | setActive (object : String) (active : Bool)
  | callback
  | completed (id : Nat)
  deriving DecidableEq, Repr

/-- A recorder: three tables that scripts look things up in, and a log of what they did. -/
structure Recorder where
  aliases : Std.TreeMap String String := {}
  /-- The values of variables. -/
  values : Std.TreeMap String Float := {}
  /-- The paths that resolve; all of them if there is no such set. -/
  objects : Option (Std.TreeSet String) := none
  tweens : Array TweenRecord := #[]
  /-- Continuations that wait for the tween numbered, in the order of their registration. -/
  pending : List (Nat × Continuation) := []
  /-- The objects switched on or off, as they were last. -/
  active : Std.TreeMap String Bool := {}
  callbacks : Nat := 0
  events : Array Event := #[]
  /-- The variables looked up, in lookup order. -/
  reads : Array String := #[]

namespace Recorder

/-! ## Tables -/

/-- Lets a name stand for a path. -/
def setAlias (r : Recorder) (name path : String) : Recorder :=
  { r with aliases := r.aliases.insert name path }

/-- Gives a variable a value. -/
def setVariable (r : Recorder) (name : String) (value : Float) : Recorder :=
  { r with values := r.values.insert name value }

/-- Lets only the paths given resolve. -/
def setObjects (r : Recorder) (paths : List String) : Recorder :=
  { r with objects := some (Std.TreeSet.ofList paths) }

/-- Whether a path resolves. -/
def resolves (r : Recorder) (path : String) : Bool :=
  match r.objects with
  | none => true
  | some paths => paths.contains path

/-- The path a name stands for, if it resolves. -/
def resolve (r : Recorder) (name : String) : Except Fault String :=
  let path := r.aliases.getD name name
  if r.resolves path then .ok path else .error (.resolution (.unknownObject path name))

/-! ## The log -/

/-- Logs a read. -/
def noteRead (r : Recorder) (name : String) : Recorder :=
  { r with reads := r.reads.push name }

/-- Switches an object on or off. -/
def switch (r : Recorder) (object : String) (active : Bool) : Recorder :=
  { r with
    active := r.active.insert object active
    events := r.events.push (.setActive object active) }

/-- Counts a callback. -/
def call (r : Recorder) : Recorder :=
  { r with callbacks := r.callbacks + 1, events := r.events.push .callback }

/-- Makes a tween, numbered by how many there are. -/
def create (r : Recorder) (object : String) (channel : Channel) (duration : Float)
    (target : Option (List Float)) : Recorder :=
  let id := r.tweens.size
  { r with
    tweens := r.tweens.push { id, object, channel, duration, target }
    events := r.events.push (.tween id) }

/-- Changes what is known of a tween; nothing happens if there is no such tween. -/
def change (r : Recorder) (id : Nat) (f : TweenRecord → TweenRecord) : Recorder :=
  { r with tweens := r.tweens.modify id f }

/-- Tells a tween a setting. -/
def configure (r : Recorder) (id : Nat) : Setting → Recorder
  | .start relative values => r.change id fun t => { t with start := some ⟨values, relative⟩ }
  | .delay seconds => r.change id fun t => { t with delay := seconds }
  | .animate on => r.change id fun t => { t with animate := on }
  | .ease e => r.change id fun t => { t with ease := some e }
  | .andThen k =>
    let r := r.change id fun t => { t with continuations := t.continuations + 1 }
    { r with pending := r.pending ++ [(id, k)] }

/-- The numbers of the tweens that continuations wait for, in rising order. -/
def pendingIds (r : Recorder) : List Nat :=
  (Std.TreeSet.ofList (r.pending.map (·.1))).toList

/-- Drops all continuations. -/
def discardPending (r : Recorder) : Recorder :=
  { r with pending := [] }

/-! ## The host -/

/-- A recorder as a host. -/
def host : Host Recorder String Nat where
  resolveObject name := do (← get).resolve name
  readVariable name := modifyGet fun r => (r.values[name]?, r.noteRead name)
  setActive object active := modify (·.switch object active)
  callback := modify (·.call)
  createTween object channel duration target :=
    modifyGet fun r => (r.tweens.size, r.create object channel duration target)
  configure id setting := modify (·.configure id setting)

/-- A recorder seen through a scope. -/
def context (scope : Scope) : Context Recorder String Nat :=
  ⟨host, scope⟩

theorem resolveObject_run (scope : Scope) (name : String) (r : Recorder) :
    ((context scope).resolveObject name).run.run r = (r.resolve (scope.path name), r) := by
  show (liftM (r.resolve (scope.path name)) : Action Recorder String).run.run r = _
  cases r.resolve (scope.path name) <;> rfl

end Recorder

end TweenScript
