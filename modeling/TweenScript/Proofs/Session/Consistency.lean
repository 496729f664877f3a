import TweenScript.Proofs.Session.Moves

/-!
# The log and the tables

The log of a recorder and its tables tell the same story: every tween, every completion, every
callback and every object switched on or off can be read from either.
-/

namespace TweenScript

/-! ## Reading the log -/

namespace Event

/-- The tween that an event makes. -/
def created? : Event → Option Nat
  | tween id => some id
  | _ => none

/-- How an event switches an object. -/
def flag? (object : String) : Event → Option Bool
  | setActive o active => if o = object then some active else none
  | _ => none

theorem filterMap_created?_append (log : List Event) (e : Event) :
    (log ++ [e]).filterMap created? = log.filterMap created? ++ e.created?.toList := by
  rw [List.filterMap_append]
  cases e <;> rfl

theorem getLast?_flag?_append (object : String) (log : List Event) (e : Event) :
    ((log ++ [e]).filterMap (flag? object)).getLast? =
      (e.flag? object).or (log.filterMap (flag? object)).getLast? := by
  rw [List.filterMap_append, List.getLast?_append]
  cases he : e.flag? object <;> simp [he]

/-- Every completion of a log comes after the making of its tween. -/
def Ordered (log : List Event) : Prop :=
  ∀ id before after, log = before ++ completed id :: after → tween id ∈ before

theorem Ordered.append {log : List Event} (h : Ordered log) {e : Event}
    (he : ∀ id, e = completed id → tween id ∈ log) : Ordered (log ++ [e]) := by
  intro id before after split
  rcases List.eq_nil_or_concat after with rfl | ⟨after, last, rfl⟩
  · obtain ⟨rfl, last_eq⟩ := List.append_inj' split rfl
    exact he id (List.head_eq_of_cons_eq last_eq)
  · rw [List.concat_eq_append, ← List.cons_append, ← List.append_assoc] at split
    obtain ⟨rfl, -⟩ := List.append_inj' split rfl
    exact h id before after rfl

end Event

namespace Recorder

section log

variable (r : Recorder)

theorem log_switch (object : String) (active : Bool) :
    (r.switch object active).events.toList = r.events.toList ++ [.setActive object active] :=
  Array.toList_push

theorem log_call : r.call.events.toList = r.events.toList ++ [.callback] :=
  Array.toList_push

theorem log_create (object : String) (channel : Channel) (duration : Float)
    (target : Option (List Float)) :
    (r.create object channel duration target).events.toList =
      r.events.toList ++ [.tween r.tweens.size] :=
  Array.toList_push

theorem log_finish (id : Nat) :
    (r.finish id).2.events.toList = r.events.toList ++ [.completed id] :=
  Array.toList_push

end log

/-- The log and the tables agree. -/
structure Consistent (r : Recorder) : Prop where
  ids : ∀ (id : Nat) (t : TweenRecord), r.tweens[id]? = some t → t.id = id
  created : r.events.toList.filterMap Event.created? = List.range r.tweens.size
  completed : ∀ id, r.events.toList.count (.completed id) = if r.isClosed id then 1 else 0
  ordered : Event.Ordered r.events.toList
  callbacks : r.callbacks = r.events.toList.count .callback
  active : ∀ object : String,
    r.active[object]? = (r.events.toList.filterMap (Event.flag? object)).getLast?
  pending : ∀ p ∈ r.pending, r.isOpen p.1

theorem consistent_empty : Consistent {} where
  ids id t h := by simp at h
  created := rfl
  completed id := by simp [isClosed]
  ordered id before after h := by simp at h
  callbacks := rfl
  active object := by simp
  pending p h := by simp at h

namespace Consistent

variable {r : Recorder}

theorem tween_mem (h : r.Consistent) {id : Nat} (lt : id < r.tweens.size) :
    .tween id ∈ r.events.toList := by
  have mem : id ∈ r.events.toList.filterMap Event.created? := by
    rw [h.created]
    exact List.mem_range.mpr lt
  obtain ⟨e, he, made⟩ := List.mem_filterMap.mp mem
  cases e with
  | tween id' =>
    cases made
    exact he
  | _ => cases made

theorem edit (h : r.Consistent) (e : TableEdit) : (r.edit e).Consistent := by
  cases e <;>
    exact ⟨h.ids, h.created, h.completed, h.ordered, h.callbacks, h.active, h.pending⟩

theorem noteRead (h : r.Consistent) (name : String) : (r.noteRead name).Consistent :=
  ⟨h.ids, h.created, h.completed, h.ordered, h.callbacks, h.active, h.pending⟩

theorem discardPending (h : r.Consistent) : r.discardPending.Consistent :=
  ⟨h.ids, h.created, h.completed, h.ordered, h.callbacks, h.active, fun p hp => by cases hp⟩

theorem switch (h : r.Consistent) (object : String) (active : Bool) :
    (r.switch object active).Consistent where
  ids := h.ids
  created := by
    rw [log_switch, Event.filterMap_created?_append, h.created]
    exact List.append_nil _
  completed id := by
    rw [log_switch, List.count_append, h.completed]
    rfl
  ordered := by
    rw [log_switch]
    exact h.ordered.append fun id he => by cases he
  callbacks := by
    rw [log_switch, List.count_append]
    exact h.callbacks
  active o := by
    rw [log_switch, Event.getLast?_flag?_append, ← h.active o]
    show (r.active.insert object active)[o]? = _
    rw [Std.TreeMap.getElem?_insert]
    by_cases ho : object = o
    · subst ho
      simp [Event.flag?]
    · simp [Event.flag?, ho]
  pending := h.pending

theorem call (h : r.Consistent) : r.call.Consistent where
  ids := h.ids
  created := by
    rw [log_call, Event.filterMap_created?_append, h.created]
    exact List.append_nil _
  completed id := by
    rw [log_call, List.count_append, h.completed]
    rfl
  ordered := by
    rw [log_call]
    exact h.ordered.append fun id he => by cases he
  callbacks := by
    rw [log_call, List.count_append, ← h.callbacks]
    rfl
  active o := by
    rw [log_call, Event.getLast?_flag?_append]
    exact h.active o
  pending := h.pending

theorem create (h : r.Consistent) (object : String) (channel : Channel) (duration : Float)
    (target : Option (List Float)) :
    (r.create object channel duration target).Consistent where
  ids id t ht := by
    rw [getElem?_create] at ht
    split at ht
    · cases ht
      rfl
    · exact h.ids id t ht
  created := by
    rw [log_create, Event.filterMap_created?_append, h.created]
    show List.range r.tweens.size ++ [r.tweens.size] = List.range (r.tweens.push _).size
    rw [Array.size_push, List.range_succ]
  completed id := by
    have closed := r.isClosed_write (.create object channel duration target) id
    rw [write] at closed
    rw [log_create, List.count_append, h.completed, closed]
    rfl
  ordered := by
    rw [log_create]
    exact h.ordered.append fun id he => by cases he
  callbacks := by
    rw [log_create, List.count_append]
    exact h.callbacks
  active o := by
    rw [log_create, Event.getLast?_flag?_append]
    exact h.active o
  pending p hp := isOpen_write (h.pending p hp) (.create object channel duration target)

theorem change (h : r.Consistent) (id : Nat) {f : TweenRecord → TweenRecord}
    (kept : ∀ t, (f t).id = t.id ∧ (f t).completed = t.completed) :
    (r.change id f).Consistent where
  ids i t ht := by
    rw [getElem?_change] at ht
    split at ht
    · obtain ⟨t', ht', rfl⟩ := Option.map_eq_some_iff.mp ht
      rw [(kept t').1]
      exact h.ids i t' ht'
    · exact h.ids i t ht
  created := by
    show _ = List.range (r.tweens.modify id f).size
    rw [Array.size_modify]
    exact h.created
  completed i := by
    rw [isClosed_change id i fun t => (kept t).2]
    exact h.completed i
  ordered := h.ordered
  callbacks := h.callbacks
  active := h.active
  pending p hp := by
    rw [isOpen_change id p.1 fun t => (kept t).2]
    exact h.pending p hp

theorem tell (h : r.Consistent) (id : Nat) {setting : Setting} (plain : setting.IsPlain) :
    (r.configure id setting).Consistent := by
  obtain ⟨f, hf, kept⟩ := r.configure_eq_change id plain
  rw [hf]
  exact h.change id fun t => ⟨(kept t).1, (kept t).2.1⟩

theorem register (h : r.Consistent) {id : Nat} (hid : r.isOpen id) (k : Continuation) :
    (r.configure id (.andThen k)).Consistent := by
  have changed := h.change id (f := fun t => { t with continuations := t.continuations + 1 })
    fun t => ⟨rfl, rfl⟩
  refine ⟨changed.ids, changed.created, changed.completed, changed.ordered, changed.callbacks,
    changed.active, fun p hp => ?_⟩
  rw [isOpen_register]
  rcases List.mem_append.mp hp with hp | hp
  · exact h.pending p hp
  · rw [List.mem_singleton.mp hp]
    exact hid

theorem finish (h : r.Consistent) {id : Nat} (hid : r.isOpen id) :
    (r.finish id).2.Consistent where
  ids i t ht := by
    change (r.change id _).tweens[i]? = some t at ht
    rw [getElem?_change] at ht
    split at ht
    · obtain ⟨t', ht', rfl⟩ := Option.map_eq_some_iff.mp ht
      exact h.ids i t' ht'
    · exact h.ids i t ht
  created := by
    rw [log_finish, Event.filterMap_created?_append, h.created]
    show List.range r.tweens.size ++ [] = List.range (r.tweens.modify id _).size
    rw [Array.size_modify, List.append_nil]
  completed i := by
    rw [log_finish, List.count_append, h.completed, isClosed_finish id i hid]
    by_cases hi : i = id
    · subst hi
      rw [isClosed_eq_false_of_isOpen hid]
      simp
    · simp [hi, Ne.symm hi]
  ordered := by
    rw [log_finish]
    refine h.ordered.append fun i he => ?_
    -- a tween that is not complete is there, so the log has its making
    cases he
    exact h.tween_mem (lt_size_of_isOpen hid)
  callbacks := by
    rw [log_finish, List.count_append]
    exact h.callbacks
  active o := by
    rw [log_finish, Event.getLast?_flag?_append]
    exact h.active o
  pending p hp := by
    change p ∈ (r.pending.partition fun p => p.1 == id).2 at hp
    rw [List.partition_eq_filter_filter] at hp
    obtain ⟨hp, other⟩ := List.mem_filter.mp hp
    rw [isOpen_finish, h.pending p hp]
    simpa using other

end Consistent

end Recorder

namespace Tracked

/-- Every move keeps the log and the tables in agreement. -/
theorem consistent_move (op : Operation) (a b : Stage) (move : Move op a b)
    (h : a.2.recorder.Consistent) : b.2.recorder.Consistent := by
  cases move with
  | write c =>
    cases c with
    | edit e => exact h.edit e
    | read name => exact h.noteRead name
    | switch object active => exact h.switch object active
    | call => exact h.call
    | create object channel duration target => exact h.create object channel duration target
    | tell id setting plain => exact h.tell id plain
  | register k hid => exact h.register hid k
  | finish hid allowed => exact h.finish hid
  | resume => exact h
  | discard _ => exact h.discardPending

end Tracked

namespace Recorder

theorem Consistent.after {r : Recorder} (h : r.Consistent) (op : Operation) :
    (engine.after r op).Consistent := by
  -- the moves are those of a tracked recorder, under whatever numbers its continuations wait
  let tracked : Tracked :=
    { recorder := r
      waiting := r.pending.map fun p => ⟨0, p.1, p.2⟩
      agree := by
        rw [List.map_map]
        exact (List.map_id r.pending).symm }
  have moved : (Tracked.engine.after tracked op).recorder.Consistent :=
    Tracked.after_induction (I := fun a => a.2.recorder.Consistent) h (Tracked.consistent_move op)
  rw [Tracked.recorder_after] at moved
  exact moved

theorem Consistent.run {r : Recorder} (h : r.Consistent) (ops : List Operation) :
    (engine.run r ops).Consistent := by
  induction ops generalizing r with
  | nil => exact h
  | cons op ops ih => exact ih (h.after op)

end Recorder

/-- After every session of a recorder its log and its tables agree. -/
theorem consistent_run (ops : List Operation) : (Recorder.engine.run {} ops).Consistent := by
  have tracked := Tracked.recorder_run {} ops
  rw [← tracked]
  exact Tracked.run_induction (I := fun a => a.2.recorder.Consistent) Recorder.consistent_empty
    Tracked.consistent_move ops

end TweenScript
