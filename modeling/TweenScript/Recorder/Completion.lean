import TweenScript.Recorder.Debt

/-!
# Completion

Completing a tween runs the continuations that wait for it, each of them whether or not one before it
failed. Completing everything goes on as long as some tween plays; it ends because every completion
lowers the debt (`debt_complete_lt`).
-/

namespace TweenScript

namespace Recorder

/-- Whether there is a tween `id` that is not complete. -/
def isOpen (r : Recorder) (id : Nat) : Bool :=
  r.tweens[id]?.any fun t => !t.completed

/-- Marks a tween complete and takes out the continuations that wait for it. -/
def finish (r : Recorder) (id : Nat) : List Continuation × Recorder :=
  let (ready, others) := r.pending.partition fun p => p.1 == id
  let r := r.change id fun t => { t with completed := true }
  (ready.map (·.2), { r with pending := others, events := r.events.push (.completed id) })

/-- Does everything that was left to do, in order; the answer is the first fault. -/
def resumeAll : List Continuation → StateM Recorder (Option Fault)
  | [] => return none
  | k :: ks => do
    let outcome ← (k.resume host).run
    let later ← resumeAll ks
    return match outcome with
      | .error f => some f
      | .ok _ => later

/-- Completes a tween that is not complete and does what waited for it. -/
def close (id : Nat) : Action Recorder Bool := do
  let ready ← modifyGet fun r => r.finish id
  match ← resumeAll ready with
  | some f => throw f
  | none => return true

/-- Completes a tween and does what waited for it. Nothing happens, and the answer is `false`, if
there is no such tween or it is complete already. -/
def complete (id : Nat) : Action Recorder Bool := do
  if (← get).isOpen id then close id else return false

/-- The first tween that plays: one that is not complete and was not told to stand still. -/
def playing? (r : Recorder) : Option Nat :=
  r.tweens.findIdx? fun t => t.animate && !t.completed

/-! ## Progress -/

theorem isOpen_of_playing? {r : Recorder} {id : Nat} (h : r.playing? = some id) :
    r.isOpen id := by
  obtain ⟨hlt, hp, -⟩ := Array.findIdx?_eq_some_iff_getElem.mp h
  simp only [Bool.and_eq_true] at hp
  simp [isOpen, hlt, hp.2]

theorem countP_modify_succ {α : Type} (p : α → Bool) (f : α → α) (h : ∀ a, p (f a) = false)
    {xs : Array α} {i : Nat} (hi : xs[i]?.any p) :
    (xs.modify i f).countP p + 1 = xs.countP p := by
  rw [← Array.getElem?_toList] at hi
  rw [← Array.countP_toList, ← Array.countP_toList, Array.toList_modify]
  revert hi
  generalize xs.toList = l
  intro hi
  induction l generalizing i with
  | nil => simp at hi
  | cons a l ih =>
    cases i with
    | zero =>
      simp only [List.getElem?_cons_zero, Option.any_some] at hi
      simp [h, hi]
    | succ i =>
      simp only [List.getElem?_cons_succ] at hi
      have := ih hi
      simp only [List.modify_succ_cons, List.countP_cons]
      omega

theorem unfinished_finish {r : Recorder} {id : Nat} (h : r.isOpen id) :
    (r.finish id).2.unfinished + 1 = r.unfinished :=
  countP_modify_succ _ _ (fun _ => rfl) h

theorem waiting_finish (r : Recorder) (id : Nat) :
    ((r.finish id).1.map fun k => k.body.chains).foldr (· + ·) 0 + (r.finish id).2.waiting =
      r.waiting := by
  simp only [finish, waiting, List.partition_eq_filter_filter, List.map_map]
  induction r.pending with
  | nil => rfl
  | cons p ps ih =>
    simp only [List.filter_cons, Function.comp_apply, List.map_cons, List.foldr_cons]
    by_cases hp : p.1 == id <;> simp [hp] at ih ⊢ <;> omega

theorem grows_resumeAll (ks : List Continuation) :
    Grows ((ks.map fun k => k.body.chains).foldr (· + ·) 0) (resumeAll ks) := by
  induction ks with
  | nil => exact .pure _
  | cons k ks ih =>
    exact (grows_evaluate k.scope k.body).bind fun _ => ih.bind fun _ => .pure _

theorem close_run (id : Nat) (r : Recorder) :
    ((close id).run.run r).2 = ((resumeAll (r.finish id).1).run (r.finish id).2).2 := by
  let after := (resumeAll (r.finish id).1).run (r.finish id).2
  show (StateT.run (ExceptT.run (match after.1 with
    | some f => throw f
    | none => pure true)) after.2 : Id _).2 = after.2
  cases after.1 <;> rfl

/-- Completing a tween lowers the debt. -/
theorem debt_complete_lt {r : Recorder} {id : Nat} (h : r.isOpen id) :
    ((complete id).run.run r).2.debt < r.debt := by
  have h₁ := unfinished_finish h
  have h₂ := waiting_finish r id
  have h₃ := grows_resumeAll (r.finish id).1 (r.finish id).2
  have run_eq : (complete id).run.run r = (close id).run.run r := by
    show (StateT.run (ExceptT.run (if r.isOpen id then close id else pure false)) r) = _
    rw [if_pos h]
  rw [run_eq, close_run]
  simp only [debt] at h₃ ⊢
  omega

/-! ## Everything that plays -/

/-- Completes what plays from here on, `done` tweens being complete already. -/
def completeRest (done : Nat) (r : Recorder) : Except Fault Nat × Recorder :=
  match _hp : r.playing? with
  | none => (.ok done, r)
  | some id =>
    match hc : (complete id).run.run r with
    | (.error f, r') => (.error f, r')
    | (.ok _, r') => completeRest (done + 1) r'
termination_by r.debt
decreasing_by
  have := debt_complete_lt (isOpen_of_playing? _hp)
  rw [hc] at this
  exact this

/-- Completes all tweens that play, those that continuations start on the way included, always the
first one next. The answer is how many; the first fault ends it. -/
def completeAll : Action Recorder Nat :=
  ExceptT.mk fun r => completeRest 0 r

end Recorder

end TweenScript
