import TweenScript.Asset
import TweenScript.Proofs.Simulation
import TweenScript.Recorder.Completion

/-!
# Sessions

A session is a sequence of operations, each of which may fail and none of which ends the session.
Operations are performed by an engine, which is a host that its caller can tell what is complete;
recorders are one.
-/

namespace TweenScript

/-- A change to the tables that scripts look things up in. -/
inductive TableEdit where
  | setAlias (name path : String)
  | setVariable (name : String) (value : Float)
  | setObjects (paths : List String)

/-- An operation of a session. Programs, expressions and assets are evaluated in a scope, the other
operations are the host's own. A caller has no continuation to register. -/
inductive Operation where
  | edit (e : TableEdit)
  | evaluate (scope : Scope) (s : Statement)
  | number (scope : Scope) (e : Expr)
  | truth (scope : Scope) (e : Expr)
  | make (scope : Scope) (chain : Chain)
  | runAsset (scope : Scope) (a : Asset)
  | create (object : String) (channel : Channel) (duration : Float) (target : Option (List Float))
  | setActive (object : String) (active : Bool)
  | callback
  | configure (id : Nat) (setting : Setting) (plain : setting.IsPlain)
  | complete (id : Nat)
  | completeAll
  | discard

/-- What an operation answers if it does not fail. -/
inductive Answer where
  | done
  | number (v : Float)
  | truth (b : Bool)
  | tween (id : Nat)
  | wasOpen (b : Bool)
  | count (n : Nat)

/-- What performs the operations of a session on states of type `σ`. -/
structure Engine (σ : Type) where
  host : Host σ String Nat
  edit : TableEdit → σ → σ
  complete : Nat → Action σ Bool
  completeAll : Action σ Nat
  discard : σ → σ

section engine

variable {σ : Type}

/-- Performs an operation. -/
def Operation.perform (E : Engine σ) : Operation → Action σ Answer
  | edit e => do modify (E.edit e); return .done
  | evaluate scope s => do s.evaluate ⟨E.host, scope⟩; return .done
  | number scope e => return .number (← Context.number ⟨E.host, scope⟩ e)
  | truth scope e => return .truth (← Context.truth ⟨E.host, scope⟩ e)
  | make scope chain => return .tween (← chain.evaluate ⟨E.host, scope⟩)
  | runAsset scope a => do a.run ⟨E.host, scope⟩; return .done
  | create object channel duration target =>
    return .tween (← E.host.createTween object channel duration target)
  | setActive object active => do E.host.setActive object active; return .done
  | callback => do E.host.callback; return .done
  | configure id setting _ => do E.host.configure id setting; return .done
  | complete id => return .wasOpen (← E.complete id)
  | completeAll => return .count (← E.completeAll)
  | discard => do modify E.discard; return .done

theorem state_answer {α β : Type} (x : Action σ α) (f : α → β) (s : σ) :
    ((do return f (← x) : Action σ β).run.run s).2 = (x.run.run s).2 := by
  rw [ExceptT.run_bind, StateT.run_bind]
  cases x.run.run s with
  | mk outcome s' => cases outcome <;> rfl

namespace Engine

/-- The state after an operation, failed or not. -/
def after (E : Engine σ) (s : σ) (op : Operation) : σ :=
  ((op.perform E).run.run s).2

/-- The state after operations, one after the other. -/
def run (E : Engine σ) (s : σ) (ops : List Operation) : σ :=
  ops.foldl E.after s

/-- The outcome of each operation of a session and the state after it. -/
def trace (E : Engine σ) (s : σ) : List Operation → List (Except Fault Answer × σ)
  | [] => []
  | op :: ops => (op.perform E).run.run s :: E.trace (E.after s op) ops

end Engine

end engine

/-! ## Runs of assets -/

namespace Asset

section runs

variable {σ ο τ : Type} (c : Context σ ο τ) {a : Asset} (s : σ)

theorem run_of_refused {f : Fault} (h : a.validate = .error f) :
    (a.run c).run.run s = (.error f, s) := by
  rw [run, h]
  rfl

theorem run_of_unparsed {f : Fault} (valid : a.validate = .ok ())
    (h : parseProgram a.expression = .error f) : (a.run c).run.run s = (.error f, s) := by
  rw [run, valid, evaluate, compile, h]
  rfl

theorem run_of_parsed {program : Statement} (valid : a.validate = .ok ())
    (h : parseProgram a.expression = .ok program) :
    (a.run c).run.run s = (program.evaluate (c.within a.toNameTable)).run.run s := by
  rw [run, valid, evaluate, compile, h]
  rfl

/-- A run leaves the state alone, or evaluates a program inside the table of the asset. -/
theorem state_run (a : Asset) {P : σ → Prop} (alone : P s)
    (evaluated : ∀ program : Statement,
      P ((program.evaluate (c.within a.toNameTable)).run.run s).2) :
    P ((a.run c).run.run s).2 := by
  rcases checked : a.validate with f | ⟨⟨⟩⟩
  · rw [run_of_refused c s checked]
    exact alone
  · rcases parsed : parseProgram a.expression with f | program
    · rw [run_of_unparsed c s checked parsed]
      exact alone
    · rw [run_of_parsed c s checked parsed]
      exact evaluated program

end runs

/-- Assets that pass or fail their checks alike and have the same program are run alike if inside
their tables one context simulates the other. -/
theorem run_related {σ₁ σ₂ ο₁ ο₂ τ₁ τ₂ : Type} {c₁ : Context σ₁ ο₁ τ₁} {c₂ : Context σ₂ ο₂ τ₂}
    {S : σ₁ → σ₂ → Prop} {O : ο₁ → ο₂ → Prop} {T : τ₁ → τ₂ → σ₁ → σ₂ → Prop} {a b : Asset}
    (h : Simulates (c₁.within a.toNameTable) (c₂.within b.toNameTable) S O T)
    (checked : b.validate = a.validate) (compiled : b.compile = a.compile) :
    Related S (a.run c₁).run (b.run c₂).run (Outcomes S fun _ _ => S) := by
  rw [run, run, evaluate, evaluate, checked, compiled]
  refine (Related.action_except a.validate).action_bind_alike fun _ => ?_
  refine (Related.action_except a.compile).action_bind_alike fun program => ?_
  exact h.statement program

end Asset

/-! ## Engines that agree -/

section agreement

variable {σ₁ σ₂ : Type} {S : σ₁ → σ₂ → Prop}

/-- Two engines answer the same from states related by `S` and keep `S`. -/
structure Engine.Agrees (E₁ : Engine σ₁) (E₂ : Engine σ₂) (S : σ₁ → σ₂ → Prop) : Prop where
  host : ∀ scope, Simulates (⟨E₁.host, scope⟩ : Context σ₁ String Nat)
    (⟨E₂.host, scope⟩ : Context σ₂ String Nat) S (· = ·) fun a b s₁ s₂ => a = b ∧ S s₁ s₂
  edit : ∀ e s₁ s₂, S s₁ s₂ → S (E₁.edit e s₁) (E₂.edit e s₂)
  complete : ∀ id, Related S (E₁.complete id).run (E₂.complete id).run (Alike S)
  completeAll : Related S E₁.completeAll.run E₂.completeAll.run (Alike S)
  discard : ∀ s₁ s₂, S s₁ s₂ → S (E₁.discard s₁) (E₂.discard s₂)

namespace Engine.Agrees

variable {E₁ : Engine σ₁} {E₂ : Engine σ₂}

theorem runAsset (h : E₁.Agrees E₂ S) (scope : Scope) (a : Asset) :
    Related S (a.run (⟨E₁.host, scope⟩ : Context σ₁ String Nat)).run
      (a.run (⟨E₂.host, scope⟩ : Context σ₂ String Nat)).run (Outcomes S fun _ _ => S) :=
  Asset.run_related (h.host (a.toNameTable :: scope)) rfl rfl

/-- The answers to an operation are the same, and it keeps the relation. -/
theorem perform (h : E₁.Agrees E₂ S) (op : Operation) :
    Related S (op.perform E₁).run (op.perform E₂).run (Alike S) := by
  refine Related.mono ?_ fun _ _ _ _ => outcomes_alike_iff.mp
  have free := h.host []
  cases op with
  | edit e => exact fun s₁ s₂ hs => ⟨rfl, h.edit e s₁ s₂ hs⟩
  | evaluate scope s => exact ((h.host scope).statement s).action_done Answer.done
  | number scope e =>
    exact (asNumber_related (h.host scope).read e).action_lift.action_answer Answer.number
  | truth scope e =>
    exact (asTruth_related (h.host scope).read e).action_lift.action_answer Answer.truth
  | make scope chain => exact ((h.host scope).chain chain).action_answer Answer.tween
  | runAsset scope a => exact (h.runAsset scope a).action_done Answer.done
  | create object channel duration target =>
    exact (free.create object object channel duration target rfl).action_answer Answer.tween
  | setActive object active =>
    exact (free.setActive object object active rfl).action_lift.action_done Answer.done
  | callback => exact free.callback.action_lift.action_done Answer.done
  | configure id setting plain =>
    intro s₁ s₂ hs
    exact ⟨rfl, (free.configure id id setting plain s₁ s₂ ⟨rfl, hs⟩).2⟩
  | complete id =>
    have related := (h.complete id).mono fun _ _ _ _ => outcomes_alike_iff.mpr
    exact related.action_answer Answer.wasOpen
  | completeAll =>
    have related := h.completeAll.mono fun _ _ _ _ => outcomes_alike_iff.mpr
    exact related.action_answer Answer.count
  | discard => exact fun s₁ s₂ hs => ⟨rfl, h.discard s₁ s₂ hs⟩

end Engine.Agrees

end agreement

namespace Recorder

/-! ## Runs of completion -/

/-- What the continuations of a tween make of its completion. -/
def verdict : Option Fault → Except Fault Bool
  | some f => .error f
  | none => .ok true

theorem close_run_eq (id : Nat) (r : Recorder) :
    (close id).run.run r =
      (verdict ((resumeAll (r.finish id).1).run (r.finish id).2).1,
        ((resumeAll (r.finish id).1).run (r.finish id).2).2) := by
  let resumed := (resumeAll (r.finish id).1).run (r.finish id).2
  show (match resumed.1 with
    | some f => throw f
    | none => pure true : Action Recorder Bool).run.run resumed.2 = (verdict resumed.1, resumed.2)
  cases resumed.1 <;> rfl

theorem complete_run_eq (id : Nat) (r : Recorder) :
    (complete id).run.run r =
      if r.isOpen id then (close id).run.run r else (.ok false, r) := by
  show (if r.isOpen id then close id else pure false : Action Recorder Bool).run.run r = _
  split <;> rfl

theorem completeRest_eq (done : Nat) (r : Recorder) :
    completeRest done r =
      match r.playing? with
      | none => (.ok done, r)
      | some id =>
        match (complete id).run.run r with
        | (.error f, r') => (.error f, r')
        | (.ok _, r') => completeRest (done + 1) r' := by
  rw [completeRest]
  split
  · rename_i h
    rw [h]
  · rename_i id h
    rw [h]
    simp only
    split
    · rename_i f r' hc
      rw [hc]
    · rename_i b r' hc
      rw [hc]

section completeRest

variable {r r' : Recorder} (done : Nat)

theorem completeRest_of_none (h : r.playing? = none) : completeRest done r = (.ok done, r) := by
  rw [completeRest_eq, h]

theorem completeRest_of_error {id : Nat} {f : Fault} (h : r.playing? = some id)
    (hc : (complete id).run.run r = (.error f, r')) : completeRest done r = (.error f, r') := by
  rw [completeRest_eq, h]
  simp only [hc]

theorem completeRest_of_ok {id : Nat} {b : Bool} (h : r.playing? = some id)
    (hc : (complete id).run.run r = (.ok b, r')) :
    completeRest done r = completeRest (done + 1) r' := by
  rw [completeRest_eq, h]
  simp only [hc]

end completeRest

/-! ## Recorders as engines -/

/-- Changes a table. -/
def edit (r : Recorder) : TableEdit → Recorder
  | .setAlias name path => r.setAlias name path
  | .setVariable name value => r.setVariable name value
  | .setObjects paths => r.setObjects paths

/-- Recorders as an engine. -/
def engine : Engine Recorder where
  host := host
  edit e r := r.edit e
  complete := complete
  completeAll := completeAll
  discard := discardPending

end Recorder

end TweenScript
