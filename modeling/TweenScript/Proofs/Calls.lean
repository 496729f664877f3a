import TweenScript.Proofs.Simulation

/-!
# What a host is asked for

Any host can note what it is asked for, and answers as it would without the notes. The views of an
expression ask for variables and for nothing else (`Context.asksOnlyReads_number`,
`Context.asksOnlyReads_truth`).
-/

namespace TweenScript

/-- What a host is asked for, with everything it is given. -/
inductive Call (ο τ : Type) where
  | resolve (name : String)
  | read (name : String)
  | switch (object : ο) (active : Bool)
  | callback
  | create (object : ο) (channel : Channel) (duration : Float) (target : Option (List Float))
  | configure (tween : τ) (setting : Setting)

/-- The state of a host behind the calls noted so far. -/
abbrev Noted (σ ο τ : Type) : Type :=
  List (Call ο τ) × σ

variable {σ ο τ α : Type}

/-- Notes a call and answers it. -/
def Call.note (call : Call ο τ) (x : StateM σ α) : StateM (Noted σ ο τ) α :=
  fun n => ((x.run n.2).1, n.1 ++ [call], (x.run n.2).2)

/-- The host, noting what it is asked for. -/
def Host.noting (h : Host σ ο τ) : Host (Noted σ ο τ) ο τ where
  resolveObject name := ExceptT.mk (Call.note (.resolve name) (h.resolveObject name).run)
  readVariable name := Call.note (.read name) (h.readVariable name)
  setActive object active := Call.note (.switch object active) (h.setActive object active)
  callback := Call.note .callback h.callback
  createTween object channel duration target :=
    ExceptT.mk (Call.note (.create object channel duration target)
      (h.createTween object channel duration target).run)
  configure tween setting := Call.note (.configure tween setting) (h.configure tween setting)

/-- The context of the host noting what it is asked for. -/
def Context.noting (c : Context σ ο τ) : Context (Noted σ ο τ) ο τ :=
  ⟨c.host.noting, c.scope⟩

/-- Since `calls` were noted the host was asked for variables only, and its state is `s`. -/
def AskedFrom (calls : List (Call ο τ)) (n : Noted σ ο τ) (s : σ) : Prop :=
  n.2 = s ∧ ∃ names : List String, n.1 = calls ++ names.map .read

/-- The noting `x` does what `y` does, and asks for variables only. -/
def AsksOnlyReads (x : StateM (Noted σ ο τ) α) (y : StateM σ α) : Prop :=
  ∀ calls, Related (AskedFrom calls) x y (Alike (AskedFrom calls))

theorem AsksOnlyReads.map {β : Type} {x : StateM (Noted σ ο τ) α} {y : StateM σ α}
    (h : AsksOnlyReads x y) (f : α → β) : AsksOnlyReads (do return f (← x)) (do return f (← y)) :=
  fun calls => (h calls).bind_alike fun _ => .pure_alike _

theorem AsksOnlyReads.exists_names {x : StateM (Noted σ ο τ) α} {y : StateM σ α}
    (h : AsksOnlyReads x y) (calls : List (Call ο τ)) (s : σ) :
    ∃ names : List String,
      x.run (calls, s) = ((y.run s).1, calls ++ names.map .read, (y.run s).2) := by
  obtain ⟨answer, state, names, asked⟩ := h calls (calls, s) s ⟨rfl, [], by simp⟩
  exact ⟨names, Prod.ext answer (Prod.ext asked state)⟩

namespace Context

variable (c : Context σ ο τ)

theorem asksOnlyReads_read (name : String) :
    AsksOnlyReads (c.noting.readVariable name) (c.readVariable name) := by
  rintro calls ⟨_, s⟩ _ ⟨rfl, names, rfl⟩
  refine ⟨rfl, rfl, names ++ [name], ?_⟩
  rw [List.map_append, ← List.append_assoc]
  rfl

theorem asksOnlyReads_number (e : Expr) : AsksOnlyReads (c.noting.number e) (c.number e) :=
  fun calls => asNumber_related (c.asksOnlyReads_read · calls) e

theorem asksOnlyReads_truth (e : Expr) : AsksOnlyReads (c.noting.truth e) (c.truth e) :=
  fun calls => asTruth_related (c.asksOnlyReads_read · calls) e

end Context

end TweenScript
