import TweenScript.Proofs.Session.Moves

/-!
# The custody of continuations

No continuation is lost, resumed twice or resumed early. At any time a continuation that was
registered waits, or was resumed once, or was discarded; it waits only while its tween is not
complete, and the completion of its tween resumes it.
-/

namespace TweenScript

/-! ## Reading the notes -/

namespace Note

/-- The number that a registration hands out. -/
def registered? : Note → Option Nat
  | registered serial _ => some serial
  | _ => none

/-- Continuation `serial` was registered on tween `id`, which is the last one completed. -/
def Ready (notes : List Note) (serial id : Nat) : Prop :=
  ∃ before after, notes = before ++ completed id :: after ∧ registered serial id ∈ before ∧
    ∀ i, completed i ∉ after

/-- Every continuation resumed was resumed by the completion of its own tween, the last one noted
before it. -/
def Timely (notes : List Note) : Prop :=
  ∀ serial, resumed serial ∈ notes → ∃ id before after,
    notes = before ++ resumed serial :: after ∧ Ready before serial id

theorem Ready.append {notes : List Note} {serial id : Nat} (h : Ready notes serial id)
    {note : Note} (hn : ∀ i, note ≠ completed i) : Ready (notes ++ [note]) serial id := by
  obtain ⟨before, after, rfl, origin, last⟩ := h
  refine ⟨before, after ++ [note], by simp, origin, fun i hi => ?_⟩
  rcases List.mem_append.mp hi with hi | hi
  · exact last i hi
  · exact hn i (List.mem_singleton.mp hi).symm

theorem Timely.append {notes more : List Note} (h : Timely notes)
    (hm : ∀ serial, resumed serial ∉ more) : Timely (notes ++ more) := by
  intro serial hs
  rcases List.mem_append.mp hs with hs | hs
  · obtain ⟨id, before, after, rfl, ready⟩ := h serial hs
    exact ⟨id, before, after ++ more, by simp, ready⟩
  · exact (hm serial hs).elim

theorem Timely.resume {notes : List Note} (h : Timely notes) {serial id : Nat}
    (ready : Ready notes serial id) : Timely (notes ++ [resumed serial]) := by
  intro serial' hs
  rcases List.mem_append.mp hs with hs | hs
  · obtain ⟨id', before, after, rfl, ready'⟩ := h serial' hs
    exact ⟨id', before, after ++ [resumed serial], by simp, ready'⟩
  · cases List.mem_singleton.mp hs
    exact ⟨id, notes, [], rfl, ready⟩

end Note

/-! ## Custody -/

/-- How often a continuation is found: waiting, about to be resumed, resumed or discarded. -/
def Stage.findings (a : Stage) (serial : Nat) : Nat :=
  a.2.waiting.countP (fun e => e.serial == serial) + a.1.countP (fun e => e.serial == serial) +
    a.2.notes.count (.resumed serial) + a.2.notes.count (.discarded serial)

section findings

variable (due : List Entry) (t : Tracked) (id serial : Nat)

theorem findings_register (k : Continuation) :
    Stage.findings (due, t.register id k) serial =
      Stage.findings (due, t) serial + if t.issued = serial then 1 else 0 := by
  have resumed : [Note.registered t.issued id].count (.resumed serial) = 0 := rfl
  have discarded : [Note.registered t.issued id].count (.discarded serial) = 0 := rfl
  simp only [Stage.findings, Tracked.register, List.countP_append, List.count_append, resumed,
    discarded, List.countP_singleton, beq_iff_eq]
  omega

theorem findings_finish :
    Stage.findings (t.finish id) serial = Stage.findings ([], t) serial := by
  have resumed : [Note.completed id].count (.resumed serial) = 0 := rfl
  have discarded : [Note.completed id].count (.discarded serial) = 0 := rfl
  have split := List.countP_eq_countP_filter_add t.waiting (fun e => e.serial == serial)
    fun e => e.id == id
  simp only [Stage.findings, Tracked.finish, List.count_append, resumed, discarded,
    List.countP_nil, split]
  omega

theorem findings_resume (e : Entry) :
    Stage.findings (due, t.noteResumed e) serial = Stage.findings (e :: due, t) serial := by
  have discarded : [Note.resumed e.serial].count (.discarded serial) = 0 := rfl
  have resumed : [Note.resumed e.serial].count (.resumed serial) =
      if e.serial == serial then 1 else 0 := by
    rw [List.count_singleton]
    by_cases hs : e.serial = serial
    · simp [hs]
    · simp [hs]
  simp only [Stage.findings, Tracked.noteResumed, List.count_append, List.countP_cons, resumed,
    discarded]
  omega

theorem findings_discard :
    Stage.findings ([], t.discard) serial = Stage.findings ([], t) serial := by
  have resumed :
      (t.waiting.map fun e => Note.discarded e.serial).count (.resumed serial) = 0 := by
    rw [List.count_eq_zero]
    simp
  have discarded : (t.waiting.map fun e => Note.discarded e.serial).count (.discarded serial) =
      t.waiting.countP fun e => e.serial == serial := by
    rw [List.count, List.countP_map]
    refine List.countP_congr fun e _ => ?_
    simp
  simp only [Stage.findings, Tracked.discard, List.count_append, List.countP_nil, resumed,
    discarded]
  omega

end findings

/-- Where continuations are. Those that are about to be resumed are in the hands of the completion
that is going on; between operations there are none. -/
structure Custody (a : Stage) : Prop where
  /-- The numbers handed out are different. -/
  registered : a.2.notes.filterMap Note.registered? = List.range a.2.issued
  /-- A continuation that was registered is found once. -/
  once : ∀ serial < a.2.issued, a.findings serial = 1
  fresh : ∀ serial, a.2.issued ≤ serial → a.findings serial = 0
  /-- A continuation waits for the tween it was registered on, and only while this is not
  complete. -/
  waits : ∀ e ∈ a.2.waiting, .registered e.serial e.id ∈ a.2.notes ∧ a.2.recorder.isOpen e.id
  due : ∀ e ∈ a.1, Note.Ready a.2.notes e.serial e.id
  timely : Note.Timely a.2.notes
  /-- A tween is completed once, or it is not complete. -/
  completed : ∀ id, a.2.notes.count (.completed id) = if a.2.recorder.isClosed id then 1 else 0
  /-- All continuations of a tween wait for it, unless some were discarded after it was made. -/
  counters : ∀ id, a.2.settled ≤ id → a.2.recorder.isClosed id = false →
    a.2.recorder.pending.countP (fun p => p.1 == id) = a.2.recorder.counter id

theorem custody_empty : Custody ([], {}) where
  registered := rfl
  once serial h := by cases h
  fresh serial _ := rfl
  waits e h := by cases h
  due e h := by cases h
  timely serial h := by cases h
  completed id := by simp [Recorder.isClosed]
  counters id _ _ := by simp [Recorder.counter]

namespace Custody

variable {due : List Entry} {t : Tracked}

theorem write (h : Custody (due, t)) (c : Change) : Custody (due, t.write c) where
  registered := h.registered
  once := h.once
  fresh := h.fresh
  waits e he := ⟨(h.waits e he).1, Recorder.isOpen_write (h.waits e he).2 c⟩
  due := h.due
  timely := h.timely
  completed id := by
    show _ = if (t.recorder.write c).isClosed id then 1 else 0
    rw [Recorder.isClosed_write]
    exact h.completed id
  counters id hid closed := by
    change (t.recorder.write c).isClosed id = false at closed
    rw [Recorder.isClosed_write] at closed
    show (t.recorder.write c).pending.countP _ = (t.recorder.write c).counter id
    rw [Recorder.pending_write, Recorder.counter_write]
    exact h.counters id hid closed

theorem register (h : Custody (due, t)) {id : Nat} (hid : t.recorder.isOpen id)
    (k : Continuation) : Custody (due, t.register id k) where
  registered := by
    show (t.notes ++ [Note.registered t.issued id]).filterMap Note.registered? =
      List.range (t.issued + 1)
    rw [List.filterMap_append, h.registered, List.range_succ]
    rfl
  once serial hs := by
    rw [findings_register]
    have hs : serial < t.issued + 1 := hs
    rcases Nat.lt_succ_iff_lt_or_eq.mp hs with hs | rfl
    · rw [if_neg (Nat.ne_of_gt hs)]
      exact h.once serial hs
    · rw [if_pos rfl, h.fresh t.issued (Nat.le_refl _)]
  fresh serial hs := by
    rw [findings_register, if_neg (Nat.ne_of_lt hs)]
    exact h.fresh serial (Nat.le_of_succ_le hs)
  waits e he := by
    show Note.registered e.serial e.id ∈ t.notes ++ [.registered t.issued id] ∧
      (t.recorder.configure id (.andThen k)).isOpen e.id
    rw [Recorder.isOpen_register]
    rcases List.mem_append.mp he with he | he
    · exact ⟨List.mem_append_left _ (h.waits e he).1, (h.waits e he).2⟩
    · cases List.mem_singleton.mp he
      exact ⟨List.mem_append_right _ (List.mem_singleton.mpr rfl), hid⟩
  due e he := (h.due e he).append fun i hi => by cases hi
  timely := h.timely.append fun serial hs => by cases List.mem_singleton.mp hs
  completed i := by
    show (t.notes ++ [Note.registered t.issued id]).count (Note.completed i) =
      if (t.recorder.configure id (.andThen k)).isClosed i then 1 else 0
    rw [Recorder.isClosed_register, List.count_append]
    exact h.completed i
  counters i hi closed := by
    change (t.recorder.configure id (.andThen k)).isClosed i = false at closed
    rw [Recorder.isClosed_register] at closed
    show (t.recorder.pending ++ [(id, k)]).countP _ =
      (t.recorder.configure id (.andThen k)).counter i
    rw [List.countP_append, Recorder.counter_register id i k hid, h.counters i hi closed]
    by_cases hi : id = i
    · simp [hi]
    · simp [hi]

theorem finish (h : Custody ([], t)) {id : Nat} (hid : t.recorder.isOpen id) :
    Custody (t.finish id) where
  registered := by
    show (t.notes ++ [Note.completed id]).filterMap Note.registered? = List.range t.issued
    rw [List.filterMap_append, h.registered]
    exact List.append_nil _
  once serial hs := by
    rw [findings_finish]
    exact h.once serial hs
  fresh serial hs := by
    rw [findings_finish]
    exact h.fresh serial hs
  waits e he := by
    obtain ⟨he, other⟩ := List.mem_filter.mp he
    show Note.registered e.serial e.id ∈ t.notes ++ [.completed id] ∧
      (t.recorder.finish id).2.isOpen e.id
    rw [Recorder.isOpen_finish, (h.waits e he).2]
    exact ⟨List.mem_append_left _ (h.waits e he).1, other⟩
  due e he := by
    obtain ⟨he, same⟩ := List.mem_filter.mp he
    rw [← beq_iff_eq.mp same]
    exact ⟨t.notes, [], rfl, (h.waits e he).1, fun i hi => by cases hi⟩
  timely := h.timely.append fun serial hs => by cases List.mem_singleton.mp hs
  completed i := by
    show (t.notes ++ [Note.completed id]).count (Note.completed i) =
      if (t.recorder.finish id).2.isClosed i then 1 else 0
    rw [List.count_append, h.completed, Recorder.isClosed_finish id i hid]
    by_cases hi : i = id
    · subst hi
      rw [Recorder.isClosed_eq_false_of_isOpen hid]
      simp
    · simp [hi, Ne.symm hi]
  counters i hi closed := by
    change (t.recorder.finish id).2.isClosed i = false at closed
    rw [Recorder.isClosed_finish id i hid, Bool.or_eq_false_iff, beq_eq_false_iff_ne] at closed
    show (t.recorder.pending.partition fun p => p.1 == id).2.countP _ =
      (t.recorder.finish id).2.counter i
    -- what is taken out waits for `id`, which is complete now
    rw [Recorder.counter_finish, ← h.counters i hi closed.1, List.partition_eq_filter_filter,
      List.countP_filter]
    refine List.countP_congr fun p _ => ?_
    by_cases hp : p.1 = i
    · simp [hp, closed.2]
    · simp [hp]

theorem resume {e : Entry} (h : Custody (e :: due, t)) : Custody (due, t.noteResumed e) where
  registered := by
    show (t.notes ++ [Note.resumed e.serial]).filterMap Note.registered? = List.range t.issued
    rw [List.filterMap_append, h.registered]
    exact List.append_nil _
  once serial hs := by
    rw [findings_resume]
    exact h.once serial hs
  fresh serial hs := by
    rw [findings_resume]
    exact h.fresh serial hs
  waits e' he' := ⟨List.mem_append_left _ (h.waits e' he').1, (h.waits e' he').2⟩
  due e' he' := (h.due e' (List.mem_cons_of_mem e he')).append fun i hi => by cases hi
  timely := h.timely.resume (h.due e List.mem_cons_self)
  completed i := by
    show (t.notes ++ [Note.resumed e.serial]).count (Note.completed i) = _
    rw [List.count_append]
    exact h.completed i
  counters := h.counters

theorem discard (h : Custody ([], t)) : Custody ([], t.discard) where
  registered := by
    show (t.notes ++ t.waiting.map fun e => Note.discarded e.serial).filterMap Note.registered? =
      List.range t.issued
    rw [List.filterMap_append, h.registered, List.filterMap_map]
    simp [Note.registered?]
  once serial hs := by
    rw [findings_discard]
    exact h.once serial hs
  fresh serial hs := by
    rw [findings_discard]
    exact h.fresh serial hs
  waits e he := by cases he
  due e he := by cases he
  timely := h.timely.append fun serial hs => by
    obtain ⟨e, -, he⟩ := List.mem_map.mp hs
    cases he
  completed i := by
    show (t.notes ++ t.waiting.map fun e => Note.discarded e.serial).count (Note.completed i) = _
    have none_completed :
        (t.waiting.map fun e => Note.discarded e.serial).count (Note.completed i) = 0 := by
      rw [List.count_eq_zero]
      simp
    rw [List.count_append, none_completed]
    exact h.completed i
  counters i hi _ := by
    show 0 = t.recorder.counter i
    -- there is no tween yet that was made after the discarding
    rw [Recorder.counter, Array.getElem?_eq_none hi]
    rfl

end Custody

theorem custody_move (op : Operation) (a b : Stage) (move : Move op a b) (h : Custody a) :
    Custody b := by
  cases move with
  | write c => exact h.write c
  | register k hid => exact h.register hid k
  | finish hid _ => exact h.finish hid
  | resume => exact h.resume
  | discard _ => exact h.discard

/-! ## What an operation does to what waits -/

/-- What has become of a continuation that waited before an operation, by a stage `a` of it and
according to the notes it made so far: the continuation still waits, or the operation discarded it,
or it completed its tween and handed it over to be resumed, or has resumed it. -/
inductive Fate (op : Operation) (made : List Note) (e : Entry) (a : Stage) : Prop where
  | waiting (waits : e ∈ a.2.waiting) (isOpen : a.2.recorder.isOpen e.id)
  | discarded (discards : op = .discard) (isOpen : a.2.recorder.isOpen e.id)
    (noted : .discarded e.serial ∈ made)
  | completed (closes : op.Closes e.id) (isClosed : a.2.recorder.isClosed e.id)
    (handed : e ∈ a.1 ∨ .resumed e.serial ∈ made)

namespace Fate

variable {op : Operation} {made : List Note} {e : Entry} {due : List Entry} {t : Tracked}

theorem write (h : Fate op made e (due, t)) (c : Change) : Fate op made e (due, t.write c) := by
  rcases h with ⟨waits, isOpen⟩ | ⟨discards, isOpen, noted⟩ | ⟨closes, isClosed, handed⟩
  · exact .waiting waits (Recorder.isOpen_write isOpen c)
  · exact .discarded discards (Recorder.isOpen_write isOpen c) noted
  · have kept : (t.write c).recorder.isClosed e.id = t.recorder.isClosed e.id :=
      Recorder.isClosed_write c e.id
    exact .completed closes (kept.trans isClosed) handed

theorem register (h : Fate op made e (due, t)) (id : Nat) (k : Continuation) :
    Fate op (made ++ [.registered t.issued id]) e (due, t.register id k) := by
  have opened : (t.register id k).recorder.isOpen e.id = t.recorder.isOpen e.id :=
    Recorder.isOpen_register id e.id k
  rcases h with ⟨waits, isOpen⟩ | ⟨discards, isOpen, noted⟩ | ⟨closes, isClosed, handed⟩
  · exact .waiting (List.mem_append_left _ waits) (opened.trans isOpen)
  · exact .discarded discards (opened.trans isOpen) (List.mem_append_left _ noted)
  · have closed : (t.register id k).recorder.isClosed e.id = t.recorder.isClosed e.id :=
      Recorder.isClosed_register id e.id k
    exact .completed closes (closed.trans isClosed) (handed.imp_right (List.mem_append_left _))

theorem finish (h : Fate op made e ([], t)) {id : Nat} (hid : t.recorder.isOpen id)
    (allowed : op.Closes id) : Fate op (made ++ [.completed id]) e (t.finish id) := by
  have opened : (t.finish id).2.recorder.isOpen e.id = (t.recorder.isOpen e.id && !(e.id == id)) :=
    Recorder.isOpen_finish id e.id
  have closed : (t.finish id).2.recorder.isClosed e.id =
      (t.recorder.isClosed e.id || e.id == id) := Recorder.isClosed_finish id e.id hid
  rcases h with ⟨waits, isOpen⟩ | ⟨discards, -, -⟩ | ⟨closes, isClosed, handed⟩
  · by_cases same : e.id = id
    · have taken : e ∈ (t.finish id).1 := List.mem_filter.mpr ⟨waits, beq_iff_eq.mpr same⟩
      exact .completed (same ▸ allowed) (closed.trans (by simp [same])) (.inl taken)
    · have left : e ∈ (t.finish id).2.waiting := List.mem_filter.mpr ⟨waits, by simp [same]⟩
      exact .waiting left (opened.trans (by simp [isOpen, same]))
  · rw [discards] at allowed
    exact allowed.elim
  · have noted := handed.resolve_left fun taken => by cases taken
    exact .completed closes (closed.trans (by simp [isClosed])) (.inr (List.mem_append_left _ noted))

theorem resume {e' : Entry} (h : Fate op made e (e' :: due, t)) :
    Fate op (made ++ [.resumed e'.serial]) e (due, t.noteResumed e') := by
  rcases h with ⟨waits, isOpen⟩ | ⟨discards, isOpen, noted⟩ | ⟨closes, isClosed, taken | noted⟩
  · exact .waiting waits isOpen
  · exact .discarded discards isOpen (List.mem_append_left _ noted)
  · rcases List.mem_cons.mp taken with rfl | taken
    · have noted : Note.resumed e.serial ∈ [Note.resumed e.serial] := List.mem_singleton.mpr rfl
      exact .completed closes isClosed (.inr (List.mem_append_right _ noted))
    · exact .completed closes isClosed (.inl taken)
  · exact .completed closes isClosed (.inr (List.mem_append_left _ noted))

theorem discard (h : Fate op made e ([], t)) (discards : op = .discard) :
    Fate op (made ++ t.waiting.map fun e => .discarded e.serial) e ([], t.discard) := by
  rcases h with ⟨waits, isOpen⟩ | ⟨-, isOpen, noted⟩ | ⟨closes, -, -⟩
  · have noted : Note.discarded e.serial ∈ t.waiting.map fun e => .discarded e.serial :=
      List.mem_map.mpr ⟨e, waits, rfl⟩
    exact .discarded discards isOpen (List.mem_append_right _ noted)
  · exact .discarded discards isOpen (List.mem_append_left _ noted)
  · rw [discards] at closes
    exact closes.elim

/-- A move adds notes, and by these every continuation goes the way it has to. -/
theorem move {a b : Stage} (move : Move op a b) :
    ∃ more, b.2.notes = a.2.notes ++ more ∧
      ∀ made e, Fate op made e a → Fate op (made ++ more) e b := by
  cases move with
  | write c =>
    refine ⟨[], (List.append_nil _).symm, fun made e h => ?_⟩
    rw [List.append_nil]
    exact h.write c
  | register k hid => exact ⟨_, rfl, fun made e h => h.register _ k⟩
  | finish hid allowed => exact ⟨_, rfl, fun made e h => h.finish hid allowed⟩
  | resume => exact ⟨_, rfl, fun made e h => h.resume⟩
  | discard discards => exact ⟨_, rfl, fun made e h => h.discard discards⟩

end Fate

/-- Everything that waits before an operation meets its fate in it. -/
def Passage (op : Operation) (t : Tracked) (a : Stage) : Prop :=
  ∃ made, a.2.notes = t.notes ++ made ∧ ∀ e ∈ t.waiting, Fate op made e a

theorem passage_after (op : Operation) {t : Tracked} (h : Custody ([], t)) :
    Passage op t ([], Tracked.engine.after t op) := by
  refine Tracked.after_induction (I := Passage op t) ?_ fun a b move => ?_
  · refine ⟨[], (List.append_nil _).symm, fun e he => ?_⟩
    exact .waiting he (h.waits e he).2
  · rintro ⟨made, notes, fates⟩
    obtain ⟨more, notes', next⟩ := Fate.move move
    refine ⟨made ++ more, ?_, fun e he => next made e (fates e he)⟩
    rw [notes', notes, List.append_assoc]

/-- After every session of a recorder, its pending continuations are the ones that wait among those
that were ever registered, each of which is in one place; and no operation makes one leave but by
discarding it, or by completing its tween and resuming it. -/
theorem custody_run (ops : List Operation) :
    let t := Tracked.engine.run {} ops
    t.recorder = Recorder.engine.run {} ops ∧
      t.recorder.pending = t.waiting.map (fun e => (e.id, e.continuation)) ∧
      Custody ([], t) ∧ ∀ op, Passage op t ([], Tracked.engine.after t op) := by
  have custody : Custody ([], Tracked.engine.run {} ops) :=
    Tracked.run_induction custody_empty custody_move ops
  exact ⟨Tracked.recorder_run {} ops, Tracked.agree _, custody, fun op => passage_after op custody⟩

end TweenScript
