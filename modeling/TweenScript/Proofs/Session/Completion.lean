import TweenScript.Proofs.History
import TweenScript.Proofs.Session.Consistency

/-!
# Completing everything

Completing everything goes through finitely many rounds, each of which completes the first tween that
plays. A continuation tells its own tweens whether to animate and completes none, so behind a round
plays nothing that was made before its tween: tweens are completed in the order they were made, and
in the end none plays or a continuation of the last one failed (`completeAll_run`).
-/

namespace TweenScript

/-- The tween whose completion an event logs. -/
def Event.completed? : Event → Option Nat
  | completed id => some id
  | _ => none

theorem Event.completed?_shift (n : Nat) (e : Event) :
    (e.shift n).completed? = e.completed?.map (n + ·) := by
  cases e <;> rfl

namespace Recorder

/-- Whether there is a tween `id` that was not told to stand still. -/
def animates (r : Recorder) (id : Nat) : Bool :=
  r.tweens[id]?.any fun t => t.animate

theorem lt_size_of_animates {r : Recorder} {id : Nat} (h : r.animates id) : id < r.tweens.size := by
  refine Nat.lt_of_not_le fun le => ?_
  rw [animates, Array.getElem?_eq_none le] at h
  exact Bool.false_ne_true h

/-! ## Completions -/

/-- Between `r` and `r'` the tweens `ids` were completed, in this order, and no others. What the
tweens of `r` were told of animating still holds. -/
structure Completes (r : Recorder) (ids : List Nat) (r' : Recorder) : Prop where
  log : ∃ added, r'.events.toList = r.events.toList ++ added ∧
    added.filterMap Event.completed? = ids
  closed : ∀ id, r'.isClosed id ↔ r.isClosed id ∨ id ∈ ids
  size : r.tweens.size ≤ r'.tweens.size
  animates : ∀ id < r.tweens.size, r'.animates id = r.animates id

namespace Completes

variable {r r' r'' : Recorder} {ids ids' : List Nat}

theorem refl (r : Recorder) : r.Completes [] r where
  log := ⟨[], by simp, rfl⟩
  closed id := by simp
  size := Nat.le_refl _
  animates id _ := rfl

theorem trans (h : r.Completes ids r') (h' : r'.Completes ids' r'') :
    r.Completes (ids ++ ids') r'' where
  log := by
    obtain ⟨added, hlog, hadded⟩ := h.log
    obtain ⟨added', hlog', hadded'⟩ := h'.log
    refine ⟨added ++ added', ?_, ?_⟩
    · rw [hlog', hlog, List.append_assoc]
    · rw [List.filterMap_append, hadded, hadded']
  closed id := by rw [h'.closed, h.closed, List.mem_append, or_assoc]
  size := Nat.le_trans h.size h'.size
  animates id lt := by rw [h'.animates id (Nat.lt_of_lt_of_le lt h.size), h.animates id lt]

end Completes

theorem completes_finish {r : Recorder} {id : Nat} (h : r.isOpen id) :
    r.Completes [id] (r.finish id).2 where
  log := ⟨[.completed id], r.log_finish id, rfl⟩
  closed i := by
    rw [isClosed_finish id i h]
    simp
  size := by
    have size_eq : (r.finish id).2.tweens.size = r.tweens.size := Array.size_modify
    omega
  animates i _ := by
    show (r.change id _).animates i = r.animates i
    rw [animates, animates, getElem?_change]
    by_cases hi : id = i
    · rw [if_pos hi]
      cases r.tweens[i]? <;> rfl
    · rw [if_neg hi]

/-! ## Resumption -/

/-- No tween is complete, neither in the tables nor in the log. -/
structure Fresh (r : Recorder) : Prop where
  closed : ∀ id, r.isClosed id = false
  log : r.events.toList.filterMap Event.completed? = []

namespace Fresh

variable {r e : Recorder}

theorem blank (r : Recorder) : r.blank.Fresh where
  closed id := by simp [Recorder.blank, isClosed]
  log := rfl

theorem write (h : r.Fresh) (c : Change) : (r.write c).Fresh where
  closed id := by rw [isClosed_write, h.closed]
  log := by
    cases c with
    | edit e => cases e <;> exact h.log
    | read name => exact h.log
    | switch object active =>
      rw [Recorder.write, log_switch, List.filterMap_append, h.log]
      rfl
    | call =>
      rw [Recorder.write, log_call, List.filterMap_append, h.log]
      rfl
    | create object channel duration target =>
      rw [Recorder.write, log_create, List.filterMap_append, h.log]
      rfl
    | tell id setting plain =>
      obtain ⟨f, hf, -⟩ := r.configure_eq_change id plain
      rw [Recorder.write, hf]
      exact h.log

theorem register (h : r.Fresh) (id : Nat) (k : Continuation) :
    (r.configure id (.andThen k)).Fresh where
  closed i := by rw [isClosed_register, h.closed]
  log := h.log

theorem maintains (scope : Scope) : Maintains (context scope) Fresh fun _ => Fresh where
  resolve name r h := by
    rw [resolveObject_run]
    exact h
  read name r h := h.write (.read name)
  readFor id name r h := h.write (.read name)
  setActive object active r h := h.write (.switch object active)
  callback r h := h.write .call
  create object channel duration target r h := h.write (.create object channel duration target)
  configure id setting r plain h := h.write (.tell id setting plain)
  register id body r h := h.register id ⟨body, scope⟩
  release id r h := h

theorem completes_append (h : e.Fresh) (r : Recorder) : r.Completes [] (r.append e) := by
  have below (id : Nat) (lt : id < r.tweens.size) : (r.append e).tweens[id]? = r.tweens[id]? :=
    Array.getElem?_append_left lt
  refine ⟨⟨(e.events.map (Event.shift r.tweens.size)).toList, Array.toList_append, ?_⟩, ?_, ?_, ?_⟩
  · have shifted : Event.completed? ∘ Event.shift r.tweens.size =
        fun e => e.completed?.map (r.tweens.size + ·) :=
      funext (Event.completed?_shift r.tweens.size)
    rw [Array.toList_map, List.filterMap_map, shifted, ← List.map_filterMap, h.log]
    rfl
  · intro id
    rw [List.mem_nil_iff, or_false]
    by_cases lt : id < r.tweens.size
    · rw [isClosed, isClosed, below id lt]
    · -- what is behind is not complete, and before it there is nothing of that number
      have le : r.tweens.size ≤ id := Nat.le_of_not_lt lt
      have before : r.tweens[id]? = none := Array.getElem?_eq_none le
      have behind := h.closed (id - r.tweens.size)
      rw [isClosed] at behind ⊢
      rw [isClosed, before, append, Array.getElem?_append_right le, Array.getElem?_map,
        Option.any_map]
      simpa [TweenRecord.shift] using behind
  · rw [size_append]
    omega
  · intro id lt
    rw [animates, animates, below id lt]

end Fresh

theorem completes_resume (k : Continuation) (r : Recorder) :
    r.Completes [] ((k.resume host).run.run r).2 := by
  show r.Completes [] ((k.body.evaluate (context k.scope)).run.run r).2
  rw [evaluate_append k.scope k.body (.of_blank_eq (Eq.refl r.blank))]
  have fresh := (Fresh.maintains k.scope).statement k.body (Fresh.blank r)
  exact fresh.completes_append r

theorem completes_resumeAll (ks : List Continuation) (r : Recorder) :
    r.Completes [] ((resumeAll ks).run r).2 := by
  induction ks generalizing r with
  | nil => exact .refl r
  | cons k ks ih => exact (completes_resume k r).trans (ih _)

/-- The fault that an outcome is, if it is one. -/
def fault? : Except Fault Unit → Option Fault
  | .error f => some f
  | .ok _ => none

theorem resumeAll_eq (ks : List Continuation) :
    resumeAll ks = (·.findSome? fault?) <$> ks.mapM fun k => (k.resume host).run := by
  induction ks with
  | nil => rfl
  | cons k ks ih =>
    rw [resumeAll, ih, List.mapM_cons]
    simp only [map_bind, bind_map_left, map_pure, List.findSome?_cons]
    refine bind_congr fun outcome => bind_congr fun outcomes => ?_
    cases outcome <;> rfl

/-! ## Rounds -/

/-- What comes of the continuations that wait for a tween when it is completed, in the order of their
registration, and the recorder after the last one. -/
def resumption (r : Recorder) (id : Nat) : List (Except Fault Unit) × Recorder :=
  let ready := (r.pending.filter fun p => p.1 == id).map (·.2)
  (ready.mapM fun k : Continuation => (k.resume host).run).run (r.finish id).2

theorem resumeAll_finish (r : Recorder) (id : Nat) :
    (resumeAll (r.finish id).1).run (r.finish id).2 =
      ((r.resumption id).1.findSome? fault?, (r.resumption id).2) := by
  have ready : (r.finish id).1 = (r.pending.filter fun p => p.1 == id).map (·.2) := by
    rw [finish, List.partition_eq_filter_filter]
  rw [resumeAll_eq, ready]
  rfl

theorem verdict_eq_error_iff {first : Option Fault} {f : Fault} :
    verdict first = .error f ↔ first = some f := by
  cases first <;> simp [verdict]

theorem eq_true_of_verdict {first : Option Fault} {b : Bool} (h : verdict first = .ok b) :
    b = true := by
  cases first <;> cases h
  rfl

theorem complete_run_of_isOpen {r : Recorder} {id : Nat} (h : r.isOpen id) :
    (complete id).run.run r =
      (verdict ((r.resumption id).1.findSome? fault?), (r.resumption id).2) := by
  rw [complete_run_eq, if_pos h, close_run_eq, resumeAll_finish]

section complete

variable {r r' : Recorder} {id : Nat} {outcome : Except Fault Bool}
  (completed : (complete id).run.run r = (outcome, r'))

include completed

theorem completes_of_complete (h : r.isOpen id) : r.Completes [id] r' := by
  have resumed := completes_resumeAll (r.finish id).1 (r.finish id).2
  rw [resumeAll_finish] at resumed
  rw [complete_run_of_isOpen h] at completed
  obtain ⟨-, rfl⟩ := Prod.mk.inj completed
  exact (completes_finish h).trans resumed

theorem debt_lt_of_complete (h : r.isOpen id) : r'.debt < r.debt := by
  have lower := debt_complete_lt h
  rw [completed] at lower
  exact lower

end complete

/-- No tween below `n` plays. -/
def Settled (r : Recorder) (n : Nat) : Prop :=
  ∀ id < n, r.animates id → r.isClosed id

section playing

variable {r : Recorder}

theorem animates_of_playing? {id : Nat} (h : r.playing? = some id) : r.animates id := by
  obtain ⟨lt, plays, -⟩ := Array.findIdx?_eq_some_iff_getElem.mp h
  rw [animates, Array.getElem?_eq_getElem lt]
  exact (Bool.and_eq_true_iff.mp plays).1

theorem isClosed_of_not_plays {id : Nat} (h : r.animates id)
    (silent : ∀ t, r.tweens[id]? = some t → ¬ (t.animate && !t.completed)) : r.isClosed id := by
  rw [animates] at h
  rw [isClosed]
  cases ht : r.tweens[id]? with
  | none =>
    rw [ht] at h
    cases h
  | some t =>
    rw [ht] at h
    have stopped := silent t ht
    have moves : t.animate = true := h
    simpa [moves] using stopped

theorem settled_of_playing? {id : Nat} (h : r.playing? = some id) : r.Settled id := by
  obtain ⟨lt, -, first⟩ := Array.findIdx?_eq_some_iff_getElem.mp h
  intro i hi animated
  refine isClosed_of_not_plays animated fun t ht => ?_
  obtain ⟨_, rfl⟩ := Array.getElem?_eq_some_iff.mp ht
  exact first i hi

theorem isClosed_of_playing?_eq_none (h : r.playing? = none) {id : Nat} (animated : r.animates id) :
    r.isClosed id := by
  refine isClosed_of_not_plays animated fun t ht => ?_
  have silent := Array.findIdx?_eq_none_iff.mp h t (Array.mem_of_getElem? ht)
  rw [silent]
  exact Bool.false_ne_true

theorem Settled.le_of_playing? {n id : Nat} (settled : r.Settled n) (h : r.playing? = some id) :
    n ≤ id := by
  refine Nat.le_of_not_lt fun lt => ?_
  have closed := settled id lt (animates_of_playing? h)
  rw [isClosed_eq_false_of_isOpen (isOpen_of_playing? h)] at closed
  cases closed

theorem Settled.mono {r' : Recorder} {ids : List Nat} {n : Nat} (settled : r.Settled n)
    (le : n ≤ r.tweens.size) (h : r.Completes ids r') : r'.Settled n := by
  intro id lt animated
  rw [h.animates id (Nat.lt_of_lt_of_le lt le)] at animated
  exact (h.closed id).mpr (.inl (settled id lt animated))

/-- When the first tween that plays is completed, the next one that plays comes after it. -/
theorem settled_of_complete {r' : Recorder} {id : Nat} {outcome : Except Fault Bool}
    (plays : r.playing? = some id) (completed : (complete id).run.run r = (outcome, r')) :
    r'.Settled (id + 1) ∧ id + 1 ≤ r'.tweens.size := by
  have opened := isOpen_of_playing? plays
  have lt := lt_size_of_isOpen opened
  have step := completes_of_complete completed opened
  have before := (settled_of_playing? plays).mono (Nat.le_of_lt lt) step
  refine ⟨fun i hi animated => ?_, Nat.le_trans lt step.size⟩
  by_cases same : i = id
  · exact (step.closed i).mpr (.inr (List.mem_singleton.mpr same))
  · exact before i (by omega) animated

end playing

/-- The first tween that plays is completed, then the next one, and so on: these are the tweens `ids`.
No continuation fails. -/
inductive Rounds : Recorder → List Nat → Recorder → Prop where
  | nil {r : Recorder} : Rounds r [] r
  | cons {r r' r'' : Recorder} {id : Nat} {ids : List Nat} (plays : r.playing? = some id)
    (completed : (complete id).run.run r = (.ok true, r')) (more : Rounds r' ids r'') :
    Rounds r (id :: ids) r''

namespace Rounds

variable {r r' r'' : Recorder} {ids : List Nat} {id : Nat}

theorem completes (h : Rounds r ids r') : r.Completes ids r' := by
  induction h with
  | nil => exact .refl _
  | cons plays completed _ ih =>
    exact (completes_of_complete completed (isOpen_of_playing? plays)).trans ih

theorem length_add_debt_le (h : Rounds r ids r') : ids.length + r'.debt ≤ r.debt := by
  induction h with
  | nil => simp
  | cons plays completed _ ih =>
    have lower := debt_lt_of_complete completed (isOpen_of_playing? plays)
    rw [List.length_cons]
    omega

theorem le_of_mem (h : Rounds r ids r') {n : Nat} (settled : r.Settled n) (le : n ≤ r.tweens.size)
    {i : Nat} (hi : i ∈ ids) : n ≤ i := by
  induction h with
  | nil => cases hi
  | cons plays completed _ ih =>
    rcases List.mem_cons.mp hi with rfl | hi
    · exact settled.le_of_playing? plays
    · have step := completes_of_complete completed (isOpen_of_playing? plays)
      exact ih (settled.mono le step) (Nat.le_trans le step.size) hi

theorem rising (h : Rounds r ids r') : ids.Pairwise (· < ·) := by
  induction h with
  | nil => exact .nil
  | cons plays completed more ih =>
    obtain ⟨settled, le⟩ := settled_of_complete plays completed
    exact .cons (fun i hi => more.le_of_mem settled le hi) ih

theorem settled (h : Rounds r ids r') {i : Nat} (hi : i ∈ ids) : r'.Settled (i + 1) := by
  induction h with
  | nil => cases hi
  | cons plays completed more ih =>
    rcases List.mem_cons.mp hi with rfl | hi
    · obtain ⟨settled, le⟩ := settled_of_complete plays completed
      exact settled.mono le more.completes
    · exact ih hi

theorem animates (h : Rounds r ids r') {i : Nat} (hi : i ∈ ids) : r'.animates i := by
  induction h with
  | nil => cases hi
  | cons plays completed more ih =>
    rcases List.mem_cons.mp hi with rfl | hi
    · have opened := isOpen_of_playing? plays
      have step := (completes_of_complete completed opened).trans more.completes
      rw [step.animates i (lt_size_of_isOpen opened)]
      exact animates_of_playing? plays
    · exact ih hi

theorem rising_append (h : Rounds r ids r') (plays : r'.playing? = some id) :
    (ids ++ [id]).Pairwise (· < ·) := by
  refine List.pairwise_append.mpr ⟨h.rising, List.pairwise_singleton _ _, fun i hi j hj => ?_⟩
  rw [List.mem_singleton.mp hj]
  exact (h.settled hi).le_of_playing? plays

end Rounds

/-! ## Everything that plays -/

/-- Completing what plays ends, after finitely many rounds: either nothing plays any more, or a
continuation of the tween next completed failed. -/
theorem completeRest_rounds (done : Nat) (r : Recorder) :
    (∃ ids r', Rounds r ids r' ∧ r'.playing? = none ∧
      completeRest done r = (.ok (done + ids.length), r')) ∨
    ∃ ids m id f r', Rounds r ids m ∧ m.playing? = some id ∧
      (complete id).run.run m = (.error f, r') ∧ completeRest done r = (.error f, r') := by
  fun_induction completeRest done r with
  | case1 done r plays => exact .inl ⟨[], r, .nil, plays, rfl⟩
  | case2 done r id plays f r' failed => exact .inr ⟨[], r, id, f, r', .nil, plays, failed, rfl⟩
  | case3 done r id plays b r' completed ih =>
    have run_eq := completed
    rw [complete_run_of_isOpen (isOpen_of_playing? plays)] at run_eq
    obtain rfl := eq_true_of_verdict (congrArg Prod.fst run_eq)
    rcases ih with ⟨ids, last, rounds, silent, he⟩ | ⟨ids, m, i, f, last, rounds, next, failed, he⟩
    · refine .inl ⟨id :: ids, last, .cons plays completed rounds, silent, ?_⟩
      rw [he, List.length_cons, Nat.add_right_comm, Nat.add_assoc]
    · exact .inr ⟨id :: ids, m, i, f, last, .cons plays completed rounds, next, failed, he⟩

/-- Everything that played is complete, and so is what continuations started on the way: these are
the tweens `ids`. -/
structure Finished (r : Recorder) (ids : List Nat) (r' : Recorder) : Prop where
  rounds : Rounds r ids r'
  bound : ids.length ≤ r.debt
  completes : r.Completes ids r'
  rising : ids.Pairwise (· < ·)
  /-- Every tween that animates is complete. -/
  closed : ∀ id, r'.animates id → r'.isClosed id
  /-- No tween that stands still was completed. -/
  animates : ∀ id ∈ ids, r'.animates id
  /-- Continuations wait only for tweens that stand still. -/
  pending : ∀ p ∈ r'.pending, r'.isOpen p.1 ∧ r'.animates p.1 = false

/-- Behind the tweens `ids`, tween `id` was completed, and `f` is the first fault of its
continuations. -/
structure Interrupted (r : Recorder) (ids : List Nat) (id : Nat) (f : Fault) (r' : Recorder) :
    Prop where
  bound : ids.length < r.debt
  completes : r.Completes (ids ++ [id]) r'
  rising : (ids ++ [id]).Pairwise (· < ·)
  animates : ∀ i ∈ ids ++ [id], r'.animates i
  /-- Every tween made before it that animates is complete. -/
  closed : ∀ i < id, r'.animates i → r'.isClosed i
  /-- No tween made after it was completed. -/
  later : ∀ i, id < i → r'.isClosed i → r.isClosed i
  /-- All its continuations were resumed, in the order of their registration. -/
  resumed : ∃ m outcomes, Rounds r ids m ∧ m.playing? = some id ∧
    m.resumption id = (outcomes, r') ∧ outcomes.findSome? fault? = some f
  pending : ∀ p ∈ r'.pending, p.1 ≠ id

/-- What completing everything comes to: its answer is how many tweens it completed, or the fault that
interrupted it. -/
def CompletedAll (r : Recorder) : Except Fault Nat × Recorder → Prop
  | (.ok k, r') => ∃ ids, ids.length = k ∧ r.Finished ids r'
  | (.error f, r') => ∃ ids id, r.Interrupted ids id f r'

theorem Rounds.finished {r r' : Recorder} {ids : List Nat} (rounds : Rounds r ids r')
    (silent : r'.playing? = none) (consistent : r'.Consistent) : r.Finished ids r' where
  rounds := rounds
  bound := by
    have lower := rounds.length_add_debt_le
    omega
  completes := rounds.completes
  rising := rounds.rising
  closed id animated := isClosed_of_playing?_eq_none silent animated
  animates id hid := rounds.animates hid
  pending p hp := by
    have opened := consistent.pending p hp
    refine ⟨opened, Bool.eq_false_iff.mpr fun animated => ?_⟩
    have closed := isClosed_of_playing?_eq_none silent animated
    rw [isClosed_eq_false_of_isOpen opened] at closed
    cases closed

theorem Rounds.interrupted {r m r' : Recorder} {ids : List Nat} {id : Nat} {f : Fault}
    (rounds : Rounds r ids m) (plays : m.playing? = some id)
    (failed : (complete id).run.run m = (.error f, r')) (consistent : r'.Consistent) :
    r.Interrupted ids id f r' := by
  have opened := isOpen_of_playing? plays
  have step := completes_of_complete failed opened
  have completes := rounds.completes.trans step
  have rising := rounds.rising_append plays
  have settled := (settled_of_complete plays failed).1
  have lower := debt_lt_of_complete failed opened
  refine ⟨?_, completes, rising, fun i hi => ?_, fun i lt => settled i (by omega), fun i lt hi => ?_,
    ?_, fun p hp same => ?_⟩
  · have bound := rounds.length_add_debt_le
    omega
  · rcases List.mem_append.mp hi with hi | hi
    · have animated := rounds.animates hi
      rw [step.animates i (lt_size_of_animates animated)]
      exact animated
    · rw [List.mem_singleton.mp hi, step.animates id (lt_size_of_isOpen opened)]
      exact animates_of_playing? plays
  · rcases (completes.closed i).mp hi with hi | hi
    · exact hi
    · -- the last tween completed has the greatest number
      rcases List.mem_append.mp hi with hi | hi
      · have lt' := (List.pairwise_append.mp rising).2.2 i hi id (List.mem_singleton_self id)
        omega
      · have same := List.mem_singleton.mp hi
        omega
  · rw [complete_run_of_isOpen opened] at failed
    obtain ⟨verdict_eq, rfl⟩ := Prod.mk.inj failed
    exact ⟨m, _, rounds, plays, rfl, verdict_eq_error_iff.mp verdict_eq⟩
  · have waits := consistent.pending p hp
    have closed := (step.closed id).mpr (.inr (List.mem_singleton_self id))
    rw [same] at waits
    rw [isClosed_eq_false_of_isOpen waits] at closed
    cases closed

/-- A fault leaves less to complete, so completing everything over and over comes to no fault in the
end. -/
theorem exists_completeAll_eq_ok (r : Recorder) :
    ∃ n ≤ r.debt, ∃ k,
      (completeAll.run.run (engine.run r (List.replicate n .completeAll))).1 = .ok k := by
  induction hd : r.debt using Nat.strongRecOn generalizing r with
  | _ d ih =>
    subst hd
    rcases completeRest_rounds 0 r with
      ⟨ids, r', -, -, he⟩ | ⟨ids, m, id, f, r', rounds, plays, failed, he⟩
    · exact ⟨0, Nat.zero_le _, 0 + ids.length, congrArg Prod.fst he⟩
    · have bound := rounds.length_add_debt_le
      have lower := debt_lt_of_complete failed (isOpen_of_playing? plays)
      obtain ⟨n, le, k, hk⟩ := ih r'.debt (by omega) r' rfl
      have after : engine.after r .completeAll = r' := by
        rw [Engine.after, Operation.perform, state_answer]
        exact congrArg Prod.snd he
      refine ⟨n + 1, by omega, k, ?_⟩
      rw [List.replicate_succ]
      show (completeAll.run.run (engine.run (engine.after r .completeAll) _)).1 = _
      rw [after]
      exact hk

end Recorder

/-- What completing everything comes to after any session: all tweens that animate are complete, or it
was interrupted. Called again after each interruption it comes to its end. -/
theorem completeAll_run (ops : List Operation) :
    let r := Recorder.engine.run {} ops
    r.CompletedAll (Recorder.completeAll.run.run r) ∧
    ∃ n ≤ r.debt, ∃ k,
      (Recorder.completeAll.run.run
        (Recorder.engine.run r (List.replicate n .completeAll))).1 = .ok k := by
  intro r
  have consistent : (Recorder.completeRest 0 r).2.Consistent := by
    have after := (Recorder.consistent_empty.run ops).after .completeAll
    rw [Engine.after, Operation.perform, state_answer] at after
    exact after
  refine ⟨?_, r.exists_completeAll_eq_ok⟩
  show r.CompletedAll (Recorder.completeRest 0 r)
  rcases Recorder.completeRest_rounds 0 r with
    ⟨ids, r', rounds, silent, he⟩ | ⟨ids, m, id, f, r', rounds, plays, failed, he⟩
  · rw [he] at consistent ⊢
    exact ⟨ids, (Nat.zero_add _).symm, rounds.finished silent consistent⟩
  · rw [he] at consistent ⊢
    exact ⟨ids, id, rounds.interrupted plays failed consistent⟩

end TweenScript
