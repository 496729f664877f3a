import Mathlib.Logic.Relation
import TweenScript.Proofs.Session.Tracking

/-!
# Moves

Whatever an operation does to a tracked recorder, it does in moves of five kinds: a change, the
registration of a continuation on a tween that is not complete, the end of a tween, the resumption
of one of its continuations, and the discarding of all of them. What every move keeps is kept by
every session (`run_induction`).
-/

namespace TweenScript

/-! ## Tweens under changes -/

namespace Recorder

/-- Whether there is a tween `id` that is complete. -/
def isClosed (r : Recorder) (id : Nat) : Bool :=
  r.tweens[id]?.any fun t => t.completed

/-- How many continuations were registered on a tween. -/
def counter (r : Recorder) (id : Nat) : Nat :=
  (r.tweens[id]?.map fun t => t.continuations).getD 0

theorem getElem?_change (r : Recorder) (id : Nat) (f : TweenRecord → TweenRecord) (i : Nat) :
    (r.change id f).tweens[i]? = if id = i then r.tweens[i]?.map f else r.tweens[i]? := by
  rw [change, Array.getElem?_modify]

theorem getElem?_create (r : Recorder) (object : String) (channel : Channel) (duration : Float)
    (target : Option (List Float)) (i : Nat) :
    (r.create object channel duration target).tweens[i]? =
      if i = r.tweens.size then some { id := i, object, channel, duration, target }
      else r.tweens[i]? := by
  rw [create, Array.getElem?_push]
  split
  · rename_i h
    rw [h]
  · rfl

variable {r : Recorder}

theorem lt_size_of_isOpen {id : Nat} (h : r.isOpen id) : id < r.tweens.size := by
  refine Nat.lt_of_not_le fun hle => ?_
  rw [isOpen, Array.getElem?_eq_none hle] at h
  exact Bool.false_ne_true h

theorem isClosed_eq_false_of_isOpen {id : Nat} (h : r.isOpen id) : r.isClosed id = false := by
  rw [isOpen] at h
  rw [isClosed]
  cases ht : r.tweens[id]? with
  | none => rfl
  | some t =>
    rw [ht] at h
    simpa using h

section change

variable {f : TweenRecord → TweenRecord} (id i : Nat)

theorem isOpen_change (hf : ∀ t, (f t).completed = t.completed) :
    (r.change id f).isOpen i = r.isOpen i := by
  rw [isOpen, isOpen, getElem?_change]
  split
  · cases r.tweens[i]? with
    | none => rfl
    | some t => simp [hf]
  · rfl

theorem isClosed_change (hf : ∀ t, (f t).completed = t.completed) :
    (r.change id f).isClosed i = r.isClosed i := by
  rw [isClosed, isClosed, getElem?_change]
  split
  · cases r.tweens[i]? with
    | none => rfl
    | some t => simp [hf]
  · rfl

theorem counter_change (hf : ∀ t, (f t).continuations = t.continuations) :
    (r.change id f).counter i = r.counter i := by
  rw [counter, counter, getElem?_change]
  split
  · cases r.tweens[i]? with
    | none => rfl
    | some t => simp [hf]
  · rfl

end change

theorem configure_eq_change (id : Nat) {setting : Setting} (plain : setting.IsPlain) :
    ∃ f : TweenRecord → TweenRecord, r.configure id setting = r.change id f ∧
      ∀ t, (f t).id = t.id ∧ (f t).completed = t.completed ∧
        (f t).continuations = t.continuations := by
  cases setting with
  | andThen k => exact plain.elim
  | _ => exact ⟨_, rfl, fun _ => ⟨rfl, rfl, rfl⟩⟩

theorem isOpen_create (object : String) (channel : Channel) (duration : Float)
    (target : Option (List Float)) (i : Nat) :
    (r.create object channel duration target).isOpen i = (r.isOpen i || i == r.tweens.size) := by
  rw [isOpen, isOpen, getElem?_create]
  by_cases h : i = r.tweens.size
  · simp [h]
  · simp [h]

theorem isOpen_write {id : Nat} (h : r.isOpen id) (c : Change) : (r.write c).isOpen id := by
  cases c with
  | edit e => cases e <;> exact h
  | create object channel duration target =>
    rw [write, isOpen_create, h]
    rfl
  | tell id' setting plain =>
    obtain ⟨f, hf, kept⟩ := r.configure_eq_change id' plain
    rw [write, hf, isOpen_change _ _ fun t => (kept t).2.1]
    exact h
  | _ => exact h

theorem isClosed_write (c : Change) (id : Nat) : (r.write c).isClosed id = r.isClosed id := by
  cases c with
  | edit e => cases e <;> rfl
  | create object channel duration target =>
    rw [write, isClosed, isClosed, getElem?_create]
    by_cases h : id = r.tweens.size
    · simp [h]
    · simp [h]
  | tell id' setting plain =>
    obtain ⟨f, hf, kept⟩ := r.configure_eq_change id' plain
    rw [write, hf, isClosed_change _ _ fun t => (kept t).2.1]
  | _ => rfl

theorem counter_write (c : Change) (id : Nat) : (r.write c).counter id = r.counter id := by
  cases c with
  | edit e => cases e <;> rfl
  | create object channel duration target =>
    rw [write, counter, counter, getElem?_create]
    by_cases h : id = r.tweens.size
    · simp [h]
    · simp [h]
  | tell id' setting plain =>
    obtain ⟨f, hf, kept⟩ := r.configure_eq_change id' plain
    rw [write, hf, counter_change _ _ fun t => (kept t).2.2]
  | _ => rfl

section register

variable (id i : Nat) (k : Continuation)

theorem isOpen_register : (r.configure id (.andThen k)).isOpen i = r.isOpen i :=
  isOpen_change id i fun _ => rfl

theorem isClosed_register : (r.configure id (.andThen k)).isClosed i = r.isClosed i :=
  isClosed_change id i fun _ => rfl

theorem counter_register (h : r.isOpen id) :
    (r.configure id (.andThen k)).counter i = r.counter i + if id = i then 1 else 0 := by
  show ((r.change id _).tweens[i]?.map _).getD 0 = (r.tweens[i]?.map _).getD 0 + _
  rw [getElem?_change]
  by_cases hi : id = i
  · subst hi
    rw [if_pos rfl, if_pos rfl, Array.getElem?_eq_getElem (lt_size_of_isOpen h)]
    rfl
  · rw [if_neg hi, if_neg hi]
    rfl

end register

section finish

variable (id i : Nat)

theorem isOpen_finish : (r.finish id).2.isOpen i = (r.isOpen i && !(i == id)) := by
  show (r.change id _).isOpen i = _
  rw [isOpen, isOpen, getElem?_change]
  by_cases hi : id = i
  · subst hi
    cases r.tweens[id]? <;> simp
  · rw [if_neg hi]
    have : (i == id) = false := beq_eq_false_iff_ne.mpr (Ne.symm hi)
    simp [this]

theorem isClosed_finish (h : r.isOpen id) :
    (r.finish id).2.isClosed i = (r.isClosed i || i == id) := by
  show (r.change id _).isClosed i = _
  rw [isClosed, isClosed, getElem?_change]
  by_cases hi : id = i
  · subst hi
    rw [if_pos rfl, Array.getElem?_eq_getElem (lt_size_of_isOpen h)]
    simp
  · rw [if_neg hi]
    have : (i == id) = false := beq_eq_false_iff_ne.mpr (Ne.symm hi)
    simp [this]

theorem counter_finish : (r.finish id).2.counter i = r.counter i :=
  counter_change id i fun _ => rfl

end finish

end Recorder

/-! ## Moves -/

/-- Whether an operation may complete a tween. -/
def Operation.Closes : Operation → Nat → Prop
  | complete id, i => i = id
  | completeAll, _ => True
  | _, _ => False

/-- A tracked recorder with the continuations that a completion took out and that are still to be
resumed. -/
abbrev Stage : Type :=
  List Entry × Tracked

/-- The moves of an operation. -/
inductive Move (op : Operation) : Stage → Stage → Prop where
  | write {due : List Entry} {t : Tracked} (c : Change) : Move op (due, t) (due, t.write c)
  | register {due : List Entry} {t : Tracked} {id : Nat} (k : Continuation)
    (h : t.recorder.isOpen id) : Move op (due, t) (due, t.register id k)
  | finish {t : Tracked} {id : Nat} (h : t.recorder.isOpen id) (allowed : op.Closes id) :
    Move op ([], t) (t.finish id)
  | resume {e : Entry} {due : List Entry} {t : Tracked} :
    Move op (e :: due, t) (due, t.noteResumed e)
  | discard {t : Tracked} (h : op = .discard) : Move op ([], t) ([], t.discard)

/-- Moves of an operation, one after the other. -/
abbrev Moves (op : Operation) : Stage → Stage → Prop :=
  Relation.ReflTransGen (Move op)

namespace Tracked

theorem configure_of_isPlain (t : Tracked) (id : Nat) {setting : Setting}
    (plain : setting.IsPlain) : t.configure id setting = t.write (.tell id setting plain) := by
  cases setting with
  | andThen k => exact plain.elim
  | _ => rfl

/-- Evaluation in any scope comes down to moves, whatever is still to be resumed. A tween that is
being told its settings is not complete. -/
theorem maintains_moves (op : Operation) (start : Stage) (due : List Entry) (scope : Scope) :
    Maintains (⟨host, scope⟩ : Context Tracked String Nat) (fun t => Moves op start (due, t))
      fun id t => Moves op start (due, t) ∧ t.recorder.isOpen id where
  resolve name t h := by
    show Moves op start (due, ((liftM (t.recorder.resolve (Scope.path scope name)) :
      Action Tracked String).run.run t).2)
    cases t.recorder.resolve (Scope.path scope name) <;> exact h
  read name t h := h.tail (.write (.read name))
  readFor id name t h := ⟨h.1.tail (.write (.read name)), h.2⟩
  setActive object active t h := h.tail (.write (.switch object active))
  callback t h := h.tail (.write .call)
  create object channel duration target t h := by
    refine ⟨h.tail (.write (.create object channel duration target)), ?_⟩
    show (t.recorder.create object channel duration target).isOpen t.recorder.tweens.size
    rw [Recorder.isOpen_create]
    simp
  configure id setting t plain h := by
    show Moves op start (due, t.configure id setting) ∧ (t.configure id setting).recorder.isOpen id
    rw [configure_of_isPlain t id plain]
    exact ⟨h.1.tail (.write _), Recorder.isOpen_write h.2 _⟩
  register id body t h := by
    -- the tween was made by the chain that registers, and nothing completes it in between
    refine ⟨h.1.tail (.register _ h.2), ?_⟩
    show (t.recorder.configure id (.andThen ⟨body, scope⟩)).isOpen id
    rw [Recorder.isOpen_register]
    exact h.2
  release id t h := h.1

theorem statement_moves (op : Operation) (due : List Entry) (scope : Scope) (s : Statement)
    (t : Tracked) : Moves op (due, t) (due, ((s.evaluate ⟨host, scope⟩).run.run t).2) :=
  (maintains_moves op (due, t) due scope).statement s .refl

theorem resumeAll_moves (op : Operation) (es : List Entry) (t : Tracked) :
    Moves op (es, t) ([], ((resumeAll es).run t).2) := by
  induction es generalizing t with
  | nil => exact .refl
  | cons e es ih =>
    have first := statement_moves op es e.continuation.scope e.continuation.body (t.noteResumed e)
    exact .head .resume (first.trans (ih _))

theorem complete_moves {op : Operation} {id : Nat} (allowed : op.Closes id) (t : Tracked) :
    Moves op ([], t) ([], ((complete id).run.run t).2) := by
  rw [complete_run_eq]
  split
  · rename_i h
    rw [close_run_eq]
    exact .head (.finish h allowed) (resumeAll_moves op _ _)
  · exact .refl

theorem completeRest_moves (done : Nat) (t : Tracked) :
    Moves .completeAll ([], t) ([], (completeRest done t).2) := by
  fun_induction completeRest done t with
  | case1 done t plays => exact .refl
  | case2 done t id plays f t' hc =>
    have allowed : Operation.completeAll.Closes id := trivial
    have first := complete_moves allowed t
    rw [hc] at first
    exact first
  | case3 done t id plays b t' hc ih =>
    have allowed : Operation.completeAll.Closes id := trivial
    have first := complete_moves allowed t
    rw [hc] at first
    exact first.trans ih

theorem runAsset_moves (op : Operation) (scope : Scope) (a : Asset) (t : Tracked) :
    Moves op ([], t) ([], ((a.run ⟨host, scope⟩).run.run t).2) := by
  apply a.state_run (P := fun t' => Moves op ([], t) ([], t'))
  · exact .refl
  · exact fun program => statement_moves op [] (a.toNameTable :: scope) program t

/-- An operation comes down to its moves, and in the end nothing is still to be resumed. -/
theorem after_moves (op : Operation) (t : Tracked) :
    Moves op ([], t) ([], engine.after t op) := by
  have keeps (scope : Scope) := maintains_moves op ([], t) [] scope
  rw [Engine.after]
  cases op with
  | edit e => exact .single (.write (.edit e))
  | evaluate scope s =>
    rw [Operation.perform, state_answer]
    exact statement_moves _ [] scope s t
  | number scope e =>
    rw [Operation.perform, state_answer]
    exact (keeps scope).number e .refl
  | truth scope e =>
    rw [Operation.perform, state_answer]
    exact (keeps scope).truth e .refl
  | make scope chain =>
    rw [Operation.perform, state_answer]
    exact (keeps scope).chain chain .refl
  | runAsset scope a =>
    rw [Operation.perform, state_answer]
    exact runAsset_moves _ scope a t
  | create object channel duration target =>
    exact .single (.write (.create object channel duration target))
  | setActive object active => exact .single (.write (.switch object active))
  | callback => exact .single (.write .call)
  | configure id setting plain =>
    show Moves _ ([], t) ([], t.configure id setting)
    rw [configure_of_isPlain t id plain]
    exact .single (.write (.tell id setting plain))
  | complete id =>
    rw [Operation.perform, state_answer]
    have allowed : (Operation.complete id).Closes id := rfl
    exact complete_moves allowed t
  | completeAll =>
    rw [Operation.perform, state_answer]
    exact completeRest_moves 0 t
  | discard => exact .single (.discard rfl)

theorem after_induction {op : Operation} {I : Stage → Prop} {t : Tracked} (first : I ([], t))
    (step : ∀ a b, Move op a b → I a → I b) : I ([], engine.after t op) := by
  have moves := after_moves op t
  generalize ([], engine.after t op) = b at moves
  induction moves with
  | refl => exact first
  | tail _ last ih => exact step _ _ last ih

/-- What holds at first and is kept by every move holds after every session. -/
theorem run_induction {I : Stage → Prop} (first : I ([], {}))
    (step : ∀ op a b, Move op a b → I a → I b) (ops : List Operation) :
    I ([], engine.run {} ops) := by
  suffices ∀ t, I ([], t) → I ([], engine.run t ops) from this {} first
  induction ops with
  | nil => exact fun t h => h
  | cons op ops ih => exact fun t h => ih _ (after_induction h (step op))

end Tracked

end TweenScript
