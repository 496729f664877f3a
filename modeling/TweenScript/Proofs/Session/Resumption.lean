import TweenScript.Proofs.Session.Custody
import TweenScript.Proofs.Session.Order

/-!
# What completing a tween comes to

Completing a tween marks it and then resumes the continuations that wait for it, in the order they
were registered, each from where the one before it left the recorder. None of them keeps the next
one from being resumed, and what they register waits behind what is left (`complete_run`).
-/

namespace TweenScript

/-! ## The order of registration -/

/-- The continuations that wait stand in the order in which their registrations were noted. -/
def Tracked.InOrder (t : Tracked) : Prop :=
  (t.waiting.map fun e => Note.registered e.serial e.id).Sublist t.notes

theorem inOrder_move (op : Operation) (a b : Stage) (move : Move op a b) (h : a.2.InOrder) :
    b.2.InOrder := by
  cases move with
  | write c => exact h
  | register k hid =>
    simp only [Tracked.InOrder, Tracked.register, List.map_append]
    exact h.append (List.Sublist.refl _)
  | @finish t id hid _ =>
    have kept : (t.waiting.filter fun e => !(e.id == id)).Sublist t.waiting := List.filter_sublist
    exact ((kept.map _).trans h).trans (List.sublist_append_left _ _)
  | resume => exact h.trans (List.sublist_append_left _ _)
  | discard _ => exact List.nil_sublist _

namespace Recorder

/-! ## Resumption step by step -/

/-- The continuations are resumed one after the other, each in its own scope and from where the one
before it left the recorder, whatever came of that one. -/
inductive Resumes : Recorder → List Continuation → List (Except Fault Unit) → Recorder → Prop where
  | nil {r : Recorder} : Resumes r [] [] r
  | cons {r r₁ r' : Recorder} {k : Continuation} {ks : List Continuation}
    {outcome : Except Fault Unit} {outcomes : List (Except Fault Unit)}
    (resumed : (k.body.evaluate (context k.scope)).run.run r = (outcome, r₁))
    (more : Resumes r₁ ks outcomes r') : Resumes r (k :: ks) (outcome :: outcomes) r'

theorem resumes_mapM (ks : List Continuation) (r : Recorder) :
    let resumed := (ks.mapM fun k : Continuation => (k.resume host).run).run r
    Resumes r ks resumed.1 resumed.2 := by
  induction ks generalizing r with
  | nil => exact .nil
  | cons k ks ih =>
    rw [List.mapM_cons]
    exact .cons rfl (ih ((k.resume host).run.run r).2)

/-- All that waits in `r` waits in `r'`, and behind it what waits for tweens that `r` does not
have. -/
structure QueuesBehind (r r' : Recorder) : Prop where
  size : r.tweens.size ≤ r'.tweens.size
  pending : ∃ registered, r'.pending = r.pending ++ registered ∧
    ∀ p ∈ registered, r.tweens.size ≤ p.1

namespace QueuesBehind

variable {r r' r'' : Recorder}

theorem refl (r : Recorder) : r.QueuesBehind r :=
  ⟨Nat.le_refl _, [], by simp, by simp⟩

theorem trans (h : r.QueuesBehind r') (h' : r'.QueuesBehind r'') : r.QueuesBehind r'' := by
  obtain ⟨first, pending, new⟩ := h.pending
  obtain ⟨later, pending', new'⟩ := h'.pending
  refine ⟨Nat.le_trans h.size h'.size, first ++ later, ?_, fun p hp => ?_⟩
  · rw [pending', pending, List.append_assoc]
  · rcases List.mem_append.mp hp with hp | hp
    · exact new p hp
    · exact Nat.le_trans h.size (new' p hp)

theorem append (r e : Recorder) : r.QueuesBehind (r.append e) := by
  refine ⟨by simp, _, rfl, fun p hp => ?_⟩
  obtain ⟨q, -, rfl⟩ := List.mem_map.mp hp
  exact Nat.le_add_right _ _

end QueuesBehind

theorem Resumes.queuesBehind {r r' : Recorder} {ks : List Continuation}
    {outcomes : List (Except Fault Unit)} (h : Resumes r ks outcomes r') : r.QueuesBehind r' := by
  induction h with
  | nil => exact .refl _
  | @cons r r₁ r' k ks outcome outcomes resumed _ ih =>
    rw [evaluate_append k.scope k.body (.of_blank_eq (Eq.refl r.blank))] at resumed
    obtain ⟨-, rfl⟩ := Prod.mk.inj resumed
    exact (QueuesBehind.append r _).trans ih

/-! ## Completion -/

theorem finish_snd (r : Recorder) (id : Nat) :
    (r.finish id).2 =
      { r with
        tweens := r.tweens.modify id fun tween => { tween with completed := true }
        pending := r.pending.filter fun p => p.1 != id
        events := r.events.push (.completed id) } := by
  rw [finish, List.partition_eq_filter_filter]
  rfl

theorem isOpen_eq_true_iff {r : Recorder} {id : Nat} :
    r.isOpen id ↔ ∃ tween, r.tweens[id]? = some tween ∧ tween.completed = false := by
  rw [isOpen]
  cases r.tweens[id]? <;> simp

/-- A tween that is not complete is completed by marking it and resuming what waits for it. -/
theorem complete_resumes {r : Recorder} {id : Nat} (h : r.isOpen id) :
    ∃ outcomes r', Resumes (r.finish id).2 (r.waitingFor id) outcomes r' ∧
      (complete id).run.run r = (verdict (outcomes.findSome? fault?), r') :=
  ⟨_, _, resumes_mapM (r.waitingFor id) (r.finish id).2, complete_run_of_isOpen h⟩

end Recorder

/-- After any session, completing a tween that is complete or not there does nothing. Otherwise the
tween is marked, which is logged, and exactly the continuations that wait for it are taken out.
These are resumed one after the other in the order of their registration, none of them stopped by a
fault of another, and the first fault is the answer. What they register comes behind all that was
left. -/
theorem complete_run (ops : List Operation) (id : Nat) :
    let t := Tracked.engine.run {} ops
    let r := Recorder.engine.run {} ops
    t.recorder = r ∧ r.pending = t.waiting.map (fun e => (e.id, e.continuation)) ∧
    t.notes.filterMap Note.registered? = List.range t.issued ∧ t.InOrder ∧
    ((∀ tween, r.tweens[id]? = some tween → tween.completed = true) →
      (Recorder.complete id).run.run r = (.ok false, r)) ∧
    ((∃ tween, r.tweens[id]? = some tween ∧ tween.completed = false) →
      ∃ outcomes r' registered,
        Recorder.Resumes
          { r with
            tweens := r.tweens.modify id fun tween => { tween with completed := true }
            pending := r.pending.filter fun p => p.1 != id
            events := r.events.push (.completed id) }
          ((t.waiting.filter fun e => e.id == id).map (·.continuation)) outcomes r' ∧
        (Recorder.complete id).run.run r =
          ((match outcomes.findSome? Recorder.fault? with
            | some f => .error f
            | none => .ok true), r') ∧
        r'.pending = r.pending.filter (fun p => p.1 != id) ++ registered ∧
        ∀ p ∈ registered, r.tweens.size ≤ p.1) := by
  intro t r
  have tracked : t.recorder = r := Tracked.recorder_run {} ops
  have agree : r.pending = t.waiting.map fun e => (e.id, e.continuation) := tracked ▸ t.agree
  have sorted : t.InOrder :=
    Tracked.run_induction (I := fun a => a.2.InOrder) (List.nil_sublist _) inOrder_move ops
  have numbered := (Tracked.run_induction custody_empty custody_move ops).registered
  refine ⟨tracked, agree, numbered, sorted, fun closed => ?_, fun opened => ?_⟩
  · have shut : ¬ r.isOpen id := by
      rw [Recorder.isOpen_eq_true_iff]
      rintro ⟨tween, found, playing⟩
      rw [closed tween found] at playing
      cases playing
    rw [Recorder.complete_run_eq, if_neg shut]
  · obtain ⟨outcomes, r', resumes, completed⟩ :=
      Recorder.complete_resumes (Recorder.isOpen_eq_true_iff.mpr opened)
    have waiting :
        r.waitingFor id = (t.waiting.filter fun e => e.id == id).map (·.continuation) := by
      rw [Recorder.waitingFor, agree, List.filter_map, List.map_map]
      rfl
    rw [waiting, Recorder.finish_snd] at resumes
    obtain ⟨registered, pending, behind⟩ := resumes.queuesBehind.pending
    rw [Array.size_modify] at behind
    refine ⟨outcomes, r', registered, resumes, ?_, pending, behind⟩
    rw [completed]
    rfl

/-- A continuation that fails, and behind it one that is resumed all the same. -/
theorem complete_run_past_fault :
    let faulty := Statement.expr (.setActive [])
    let chain := Chain.mk .alpha "A" [.variable "a", .number 1]
      [.andThen faulty, .andThen (.expr .callback)]
    let r := Recorder.engine.run {} [.make [] chain]
    (∃ tween, r.tweens[0]? = some tween ∧ tween.completed = false) ∧
    ∃ outcomes r' registered,
      Recorder.Resumes
        { r with
          tweens := r.tweens.modify 0 fun tween => { tween with completed := true }
          pending := r.pending.filter fun p => p.1 != 0
          events := r.events.push (.completed 0) }
        [⟨faulty, []⟩, ⟨.expr .callback, []⟩] outcomes r' ∧
      (Recorder.complete 0).run.run r = (.error (.arity "Active" "2" 0), r') ∧
      r'.pending = registered ∧ ∀ p ∈ registered, 1 ≤ p.1 := by
  intro faulty chain r
  have opened : ∃ tween, r.tweens[0]? = some tween ∧ tween.completed = false := ⟨_, rfl, rfl⟩
  obtain ⟨-, -, -, -, -, complete⟩ := complete_run [.make [] chain] 0
  obtain ⟨outcomes, r', registered, resumes, completed, pending, behind⟩ := complete opened
  have failed : ((Recorder.complete 0).run.run r).1 = .error (.arity "Active" "2" 0) := rfl
  have state := congrArg Prod.snd completed
  exact ⟨opened, outcomes, r', registered, resumes, Prod.ext failed state, pending, behind⟩

end TweenScript
