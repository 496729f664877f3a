import TweenScript.Proofs.Atomicity
import TweenScript.Proofs.Views
import TweenScript.Proofs.Views.Agreement

/-!
# Views leave nothing behind but reads

On a recorder the views of an expression log the variables on the evaluated path and do nothing
else, and they depend on these variables alone: another recorder that looks up the same for them
gives the same values along the same path (`Recorder.views_pure`).
-/

namespace TweenScript

namespace Expr

/-! ## What a path depends on -/

/-- Under both ways to look variables up, the views of an expression take the same path to the same
values. -/
structure SameIn (look look' : String → Option Float) (e : Expr) : Prop where
  number : e.numberIn look' = e.numberIn look
  truth : e.truthIn look' = e.truthIn look
  reads : e.reads look' = e.reads look

variable {look look' : String → Option Float}

theorem sameIn : ∀ e : Expr, (∀ name ∈ e.reads look, look' name = look name) →
    SameIn look look' e
  | .number _, _ | .tween _, _ | .setActive _, _ | .callback, _ => ⟨rfl, rfl, rfl⟩
  | .variable name, h => by
    have value : (look' name).getD 0 = (look name).getD 0 := by
      rw [h name (List.mem_singleton_self name)]
    exact ⟨value, congrArg isPositive value, rfl⟩
  | .conditional c yes no, h => by
    have first := sameIn c fun name hn => h name (List.mem_append_left _ hn)
    have rest := fun name hn => h name (List.mem_append_right _ hn)
    -- both go on to the branch that the condition takes under `look`
    cases taken : c.truthIn look with
    | true =>
      have branch := sameIn yes (by simpa only [taken, if_true] using rest)
      constructor <;> simp only [numberIn_conditional, truthIn_conditional, reads, first.truth,
        first.reads, taken, if_true, branch.number, branch.reads]
    | false =>
      have branch := sameIn no (by simpa only [taken, Bool.false_eq_true, if_false] using rest)
      constructor <;> simp only [numberIn_conditional, truthIn_conditional, reads, first.truth,
        first.reads, taken, Bool.false_eq_true, if_false, branch.number, branch.reads]
  | .unary .neg e, h => by
    have operand := sameIn e h
    have value : -(e.numberIn look') = -(e.numberIn look) := by rw [operand.number]
    exact ⟨value, congrArg isPositive value, operand.reads⟩
  | .unary .not e, h => by
    have operand := sameIn e h
    have value : (!e.truthIn look') = !e.truthIn look := by rw [operand.truth]
    exact ⟨congrArg indicator value, value, operand.reads⟩
  | .binary (.arithmetic op) l r, h => by
    have left := sameIn l fun name hn => h name (List.mem_append_left _ hn)
    have right := sameIn r fun name hn => h name (List.mem_append_right _ hn)
    have value : op.apply (l.numberIn look') (r.numberIn look') =
        op.apply (l.numberIn look) (r.numberIn look) := by
      rw [left.number, right.number]
    exact ⟨value, congrArg isPositive value, by rw [reads, reads, left.reads, right.reads]⟩
  | .binary (.comparison op) l r, h => by
    have left := sameIn l fun name hn => h name (List.mem_append_left _ hn)
    have right := sameIn r fun name hn => h name (List.mem_append_right _ hn)
    have value : op.holds (l.numberIn look') (r.numberIn look') =
        op.holds (l.numberIn look) (r.numberIn look) := by
      rw [left.number, right.number]
    exact ⟨congrArg indicator value, value, by rw [reads, reads, left.reads, right.reads]⟩
  | .binary (.logical .or) l r, h => by
    have left := sameIn l fun name hn => h name (List.mem_append_left _ hn)
    have rest := fun name hn => h name (List.mem_append_right _ hn)
    cases decided : l.truthIn look with
    | true =>
      constructor <;> simp only [numberIn_or, truthIn_or, reads, left.truth, left.reads, decided,
        Bool.true_or, if_true]
    | false =>
      have right := sameIn r (by simpa only [decided, Bool.false_eq_true, if_false] using rest)
      constructor <;> simp only [numberIn_or, truthIn_or, reads, left.truth, left.reads, decided,
        Bool.false_eq_true, if_false, right.truth, right.reads]
  | .binary (.logical .and) l r, h => by
    have left := sameIn l fun name hn => h name (List.mem_append_left _ hn)
    have rest := fun name hn => h name (List.mem_append_right _ hn)
    cases decided : l.truthIn look with
    | true =>
      have right := sameIn r (by simpa only [decided, if_true] using rest)
      constructor <;> simp only [numberIn_and, truthIn_and, reads, left.truth, left.reads, decided,
        if_true, right.truth, right.reads]
    | false =>
      constructor <;> simp only [numberIn_and, truthIn_and, reads, left.truth, left.reads, decided,
        Bool.false_and, Bool.false_eq_true, if_false]

end Expr

namespace Recorder

/-! ## Views and value statements on a recorder -/

section views

variable (scope : Scope)

/-- The views take the same path on a recorder that has the same values for the variables on it. -/
theorem views_run_of_sameValues (e : Expr) {r r' : Recorder}
    (same : ∀ name ∈ e.reads (r.look scope), r'.values[name]? = r.values[name]?) :
    ((context scope).number e).run r' =
        (e.numberIn (r.look scope), r'.noteReads (e.reads (r.look scope))) ∧
      ((context scope).truth e).run r' =
        (e.truthIn (r.look scope), r'.noteReads (e.reads (r.look scope))) := by
  have looks : ∀ name ∈ e.reads (r.look scope), r'.look scope name = r.look scope name := by
    intro name hn
    rw [look, look, same name hn]
  have path := e.sameIn looks
  rw [number_run, truth_run, path.number, path.truth, path.reads]
  exact ⟨rfl, rfl⟩

theorem evaluate_run_of_acts_eq_false {e : Expr} (h : e.acts = false) (r : Recorder) :
    (e.evaluate (context scope)).run.run r = (.ok (), r.noteReads (e.reads (r.look scope))) := by
  have dropped : e.evaluate (context scope) = discard (liftM ((context scope).number e)) := by
    cases e with
    | tween _ | setActive _ | callback => cases h
    | _ => rfl
  rw [dropped]
  exact (run_bind_ok (run_lift (number_run scope e r))).trans rfl

/-- Either view of an expression changes nothing of a recorder but its reads, behind which come the
variables on the evaluated path from left to right. On every recorder that has the same values for
these variables it gives the same value and logs the same reads. So a statement that is an
expression without an action of its own changes nothing but the reads. -/
theorem views_pure (e : Expr) (r : Recorder) :
    let look := r.look scope
    let names := e.reads look
    ((context scope).number e).run r =
      (e.numberIn look, { r with reads := r.reads ++ names.toArray }) ∧
    ((context scope).truth e).run r =
      (e.truthIn look, { r with reads := r.reads ++ names.toArray }) ∧
    (∀ r' : Recorder, (∀ name ∈ names, r'.values[name]? = r.values[name]?) →
      ((context scope).number e).run r' =
        (e.numberIn look, { r' with reads := r'.reads ++ names.toArray }) ∧
      ((context scope).truth e).run r' =
        (e.truthIn look, { r' with reads := r'.reads ++ names.toArray })) ∧
    (e.acts = false → ((Statement.expr e).evaluate (context scope)).run.run r =
      (.ok (), { r with reads := r.reads ++ names.toArray })) := by
  intro look names
  refine ⟨number_run scope e r, truth_run scope e r, fun r' same => ?_, fun h => ?_⟩
  · exact views_run_of_sameValues scope e same
  · rw [Statement.evaluate]
    exact evaluate_run_of_acts_eq_false scope h r

/-- The left operand decides, so what the right one stands for does not matter. -/
theorem views_pure_off_path :
    let e : Expr := .binary (.logical .or) (.variable "on") (.variable "probe")
    let scope : Scope := [{ values := [("on", 1)] }]
    let r : Recorder := {}
    let r' := r.setVariable "probe" 5
    (∀ name ∈ e.reads (r.look scope), r'.values[name]? = r.values[name]?) ∧
      ((context scope).truth e).run r = (true, { r with reads := #["on"] }) ∧
      ((context scope).truth e).run r' = (true, { r' with reads := #["on"] }) := by
  intro e scope r r'
  have path : e.reads (r.look scope) = ["on"] := by
    simp only [e, scope, r]
    rfl
  have value : e.truthIn (r.look scope) = true := by
    simp only [e, scope, r]
    rfl
  have same : ∀ name ∈ e.reads (r.look scope), r'.values[name]? = r.values[name]? := by
    rw [path, List.forall_mem_singleton]
    simp [r', r, setVariable]
  obtain ⟨-, truth, others, -⟩ := views_pure scope e r
  have truth' := (others r' same).2
  rw [value, path] at truth truth'
  exact ⟨same, truth, truth'⟩

end views

end Recorder

end TweenScript
