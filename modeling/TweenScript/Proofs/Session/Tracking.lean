import TweenScript.Proofs.Session

/-!
# Tracking continuations

A tracked recorder is a recorder that numbers the continuations in the order they are registered and
notes what becomes of each. Its operations are those of the recorder with the notes added: without
the notes, every session is the session of a recorder (`recorder_run`).
-/

namespace TweenScript

/-! ## Changes -/

/-- What a host operation writes into a recorder, registering continuations aside. -/
inductive Change where
  | edit (e : TableEdit)
  | read (name : String)
  | switch (object : String) (active : Bool)
  | call
  | create (object : String) (channel : Channel) (duration : Float) (target : Option (List Float))
  | tell (id : Nat) (setting : Setting) (plain : setting.IsPlain)

namespace Recorder

/-- Makes a change. -/
def write (r : Recorder) : Change → Recorder
  | .edit e => r.edit e
  | .read name => r.noteRead name
  | .switch object active => r.switch object active
  | .call => r.call
  | .create object channel duration target => r.create object channel duration target
  | .tell id setting _ => r.configure id setting

@[simp] theorem pending_write (r : Recorder) (c : Change) : (r.write c).pending = r.pending := by
  cases c with
  | edit e => cases e <;> rfl
  | tell id setting plain =>
    cases setting with
    | andThen k => exact plain.elim
    | _ => rfl
  | _ => rfl

end Recorder

/-! ## Tracked recorders -/

/-- A continuation that waits for a tween, under the number of its registration. -/
structure Entry where
  serial : Nat
  id : Nat
  continuation : Continuation

/-- What becomes of continuations, and which tweens are completed. -/
inductive Note where
  | registered (serial id : Nat)
  | completed (id : Nat)
  | resumed (serial : Nat)
  | discarded (serial : Nat)
  deriving DecidableEq

/-- A recorder whose continuations are tracked. -/
structure Tracked where
  recorder : Recorder := {}
  /-- The continuations that wait, in the order of their registration. -/
  waiting : List Entry := []
  agree : recorder.pending = waiting.map fun e => (e.id, e.continuation) := by rfl
  /-- How many continuations were registered. -/
  issued : Nat := 0
  notes : List Note := []
  /-- How many tweens there were when continuations were last discarded. -/
  settled : Nat := 0

namespace Tracked

/-- Makes a change. -/
def write (t : Tracked) (c : Change) : Tracked :=
  { t with
    recorder := t.recorder.write c
    agree := by rw [Recorder.pending_write, t.agree] }

/-- Registers a continuation. -/
def register (t : Tracked) (id : Nat) (k : Continuation) : Tracked :=
  { t with
    recorder := t.recorder.configure id (.andThen k)
    waiting := t.waiting ++ [⟨t.issued, id, k⟩]
    agree := by simp [Recorder.configure, Recorder.change, t.agree]
    issued := t.issued + 1
    notes := t.notes ++ [.registered t.issued id] }

/-- Tells a tween a setting. -/
def configure (t : Tracked) (id : Nat) : Setting → Tracked
  | .start relative values => t.write (.tell id (.start relative values) trivial)
  | .delay seconds => t.write (.tell id (.delay seconds) trivial)
  | .animate on => t.write (.tell id (.animate on) trivial)
  | .ease e => t.write (.tell id (.ease e) trivial)
  | .andThen k => t.register id k

/-- Marks a tween complete and takes out the continuations that wait for it. -/
def finish (t : Tracked) (id : Nat) : List Entry × Tracked :=
  (t.waiting.filter fun e => e.id == id,
    { t with
      recorder := (t.recorder.finish id).2
      waiting := t.waiting.filter fun e => !(e.id == id)
      agree := by
        simp only [Recorder.finish, t.agree, List.partition_eq_filter_filter, List.filter_map]
        rfl
      notes := t.notes ++ [.completed id] })

/-- Notes that a continuation is resumed. -/
def noteResumed (t : Tracked) (e : Entry) : Tracked :=
  { t with notes := t.notes ++ [.resumed e.serial] }

/-- Drops all continuations. -/
def discard (t : Tracked) : Tracked :=
  { t with
    recorder := t.recorder.discardPending
    waiting := []
    agree := rfl
    notes := t.notes ++ t.waiting.map fun e => .discarded e.serial
    settled := t.recorder.tweens.size }

/-- A tracked recorder as a host. -/
def host : Host Tracked String Nat where
  resolveObject name := do (← get).recorder.resolve name
  readVariable name := modifyGet fun t => (t.recorder.values[name]?, t.write (.read name))
  setActive object active := modify (·.write (.switch object active))
  callback := modify (·.write .call)
  createTween object channel duration target :=
    modifyGet fun t => (t.recorder.tweens.size, t.write (.create object channel duration target))
  configure id setting := modify (·.configure id setting)

/-- Does everything that was left to do, in order; the answer is the first fault. -/
def resumeAll : List Entry → StateM Tracked (Option Fault)
  | [] => return none
  | e :: es => do
    modify (·.noteResumed e)
    let outcome ← (e.continuation.resume host).run
    let later ← resumeAll es
    return match outcome with
      | .error f => some f
      | .ok _ => later

/-- Completes a tween that is not complete and does what waited for it. -/
def close (id : Nat) : Action Tracked Bool := do
  let ready ← modifyGet fun t => t.finish id
  match ← resumeAll ready with
  | some f => throw f
  | none => return true

/-- Completes a tween and does what waited for it. Nothing happens, and the answer is `false`, if
there is no such tween or it is complete already. -/
def complete (id : Nat) : Action Tracked Bool := do
  if (← get).recorder.isOpen id then close id else return false

/-! ## Without the notes -/

/-- A tracked recorder is a recorder. -/
def Erases (t : Tracked) (r : Recorder) : Prop :=
  t.recorder = r

theorem run_erased {α : Type} {x : StateM Tracked α} {y : StateM Recorder α}
    (h : Related Erases x y (Alike Erases)) (t : Tracked) :
    y.run t.recorder = ((x.run t).1, (x.run t).2.recorder) := by
  obtain ⟨same, erases⟩ := h t t.recorder rfl
  exact Prod.ext same.symm erases.symm

theorem recorder_configure (t : Tracked) (id : Nat) (setting : Setting) :
    (t.configure id setting).recorder = t.recorder.configure id setting := by
  cases setting <;> rfl

theorem simulates (scope : Scope) : Simulates ⟨host, scope⟩ (Recorder.context scope) Erases
    (· = ·) fun a b t r => a = b ∧ Erases t r where
  resolve name := by
    rintro t _ rfl
    show Outcomes _ _ ((liftM (t.recorder.resolve (Scope.path scope name)) :
        Action Tracked String).run.run t).1
      ((liftM (t.recorder.resolve (Scope.path scope name)) :
        Action Recorder String).run.run t.recorder).1 t t.recorder
    cases t.recorder.resolve (Scope.path scope name) with
    | ok path => exact ⟨rfl, rfl⟩
    | error f => exact ⟨rfl, rfl⟩
  read name := by
    rintro t _ rfl
    exact ⟨rfl, rfl⟩
  readFor a _ name := by
    rintro t _ ⟨rfl, rfl⟩
    exact ⟨rfl, rfl, rfl⟩
  setActive o _ active := by
    rintro rfl t _ rfl
    rfl
  callback := by
    rintro t _ rfl
    rfl
  create o _ channel duration target := by
    rintro rfl t _ rfl
    exact ⟨rfl, rfl⟩
  configure a _ setting plain := by
    rintro t _ ⟨rfl, rfl⟩
    exact ⟨rfl, recorder_configure t a setting⟩
  register a _ body := by
    rintro t _ ⟨rfl, rfl⟩
    exact ⟨rfl, rfl⟩
  release a b t r h := h.2

theorem resume_related (k : Continuation) :
    Related Erases (k.resume host).run (k.resume Recorder.host).run (Alike Erases) :=
  ((simulates k.scope).statement k.body).mono fun _ _ _ _ h => h.alike_unit

theorem resumeAll_related (es : List Entry) :
    Related Erases (resumeAll es) (Recorder.resumeAll (es.map (·.continuation)))
      (Alike Erases) := by
  induction es with
  | nil => exact .pure fun _ _ hs => ⟨rfl, hs⟩
  | cons e es ih =>
    rw [List.map_cons, resumeAll, Recorder.resumeAll]
    refine Related.after ?_ fun _ _ hs => hs
    exact (resume_related e.continuation).bind_alike fun outcome =>
      ih.bind_alike fun later => .pure fun _ _ hs => ⟨rfl, hs⟩

theorem finish_related (t : Tracked) (id : Nat) :
    (t.finish id).1.map (·.continuation) = (t.recorder.finish id).1 := by
  simp only [finish, Recorder.finish, t.agree, List.partition_eq_filter_filter, List.filter_map,
    List.map_map]
  rfl

theorem close_run_eq (id : Nat) (t : Tracked) :
    (close id).run.run t =
      (Recorder.verdict ((resumeAll (t.finish id).1).run (t.finish id).2).1,
        ((resumeAll (t.finish id).1).run (t.finish id).2).2) := by
  let resumed := (resumeAll (t.finish id).1).run (t.finish id).2
  show (match resumed.1 with
    | some f => throw f
    | none => pure true : Action Tracked Bool).run.run resumed.2 =
      (Recorder.verdict resumed.1, resumed.2)
  cases resumed.1 <;> rfl

theorem complete_run_eq (id : Nat) (t : Tracked) :
    (complete id).run.run t =
      if t.recorder.isOpen id then (close id).run.run t else (.ok false, t) := by
  show (if t.recorder.isOpen id then close id else pure false : Action Tracked Bool).run.run t = _
  split <;> rfl

theorem complete_related (id : Nat) :
    Related Erases (complete id).run (Recorder.complete id).run (Alike Erases) := by
  rintro t _ rfl
  rw [complete_run_eq, Recorder.complete_run_eq]
  split
  · have resumed := resumeAll_related (t.finish id).1 (t.finish id).2 _ rfl
    rw [finish_related] at resumed
    rw [close_run_eq, Recorder.close_run_eq]
    exact ⟨congrArg Recorder.verdict resumed.1, resumed.2⟩
  · exact ⟨rfl, rfl⟩

/-! ## Everything that plays -/

/-- Completes what plays from here on, `done` tweens being complete already. -/
def completeRest (done : Nat) (t : Tracked) : Except Fault Nat × Tracked :=
  match _hp : t.recorder.playing? with
  | none => (.ok done, t)
  | some id =>
    match hc : (complete id).run.run t with
    | (.error f, t') => (.error f, t')
    | (.ok _, t') => completeRest (done + 1) t'
termination_by t.recorder.debt
decreasing_by
  have lower := Recorder.debt_complete_lt (Recorder.isOpen_of_playing? _hp)
  rw [run_erased (complete_related id), hc] at lower
  exact lower

/-- Completes all tweens that play, those that continuations start on the way included, always the
first one next. The answer is how many; the first fault ends it. -/
def completeAll : Action Tracked Nat :=
  ExceptT.mk fun t => completeRest 0 t

theorem completeRest_erased (done : Nat) (t : Tracked) :
    Recorder.completeRest done t.recorder =
      ((completeRest done t).1, (completeRest done t).2.recorder) := by
  fun_induction completeRest done t with
  | case1 done t plays => exact Recorder.completeRest_of_none done plays
  | case2 done t id plays f t' hc =>
    refine Recorder.completeRest_of_error done plays ?_
    rw [run_erased (complete_related id), hc]
  | case3 done t id plays b t' hc ih =>
    rw [← ih]
    refine Recorder.completeRest_of_ok (b := b) done plays ?_
    rw [run_erased (complete_related id), hc]

theorem completeAll_related :
    Related Erases completeAll.run Recorder.completeAll.run (Alike Erases) := by
  rintro t _ rfl
  show Alike Erases (completeRest 0 t).1 (Recorder.completeRest 0 t.recorder).1 _
    (Recorder.completeRest 0 t.recorder).2
  rw [completeRest_erased]
  exact ⟨rfl, rfl⟩

/-! ## Tracked sessions -/

/-- Tracked recorders as an engine. -/
def engine : Engine Tracked where
  host := host
  edit e t := t.write (.edit e)
  complete := complete
  completeAll := completeAll
  discard := discard

/-- The answers to an operation are the same with the notes and without. -/
theorem agrees : engine.Agrees Recorder.engine Erases where
  host := simulates
  edit := by
    rintro e t _ rfl
    rfl
  complete := complete_related
  completeAll := completeAll_related
  discard := by
    rintro t _ rfl
    rfl

theorem recorder_after (t : Tracked) (op : Operation) :
    (engine.after t op).recorder = Recorder.engine.after t.recorder op := by
  rw [Engine.after, Engine.after, run_erased (agrees.perform op)]

/-- Without the notes, a session of a tracked recorder is a session of the recorder. -/
theorem recorder_run (t : Tracked) (ops : List Operation) :
    (engine.run t ops).recorder = Recorder.engine.run t.recorder ops := by
  induction ops generalizing t with
  | nil => rfl
  | cons op ops ih =>
    show (engine.run (engine.after t op) ops).recorder = _
    rw [ih, recorder_after]
    rfl

end Tracked

end TweenScript
