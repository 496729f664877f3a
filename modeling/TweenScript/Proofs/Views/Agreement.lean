import TweenScript.Proofs.Calls

/-!
# The two views agree

The number view and the truth view of an expression are one evaluation whose value is carried over:
from truth to `1` and `0` where an operator gives a truth value, and from numbers to whether they
are positive everywhere else. So both ask for the same variables in the same order
(`Context.views_agree`).
-/

namespace TweenScript

/-! ## Values carried over -/

theorem isPositive_indicator (b : Bool) : isPositive (indicator b) = b := by
  cases b <;> decide

theorem isPositive_of_isNaN {v : Float} (h : v.isNaN) : isPositive v = false := by
  have unordered (u : Float.Model.UnpackedFloat) :
      u.isNaN → (Float.toModel 0).unpack.lt u = false := by
    cases u with
    | notANumber => exact fun _ => rfl
    | _ => exact fun h => nomatch h
  show decide (decide ((Float.toModel 0).unpack.lt v.toModel.unpack = true) = true) = false
  rw [unordered _ h]
  rfl

namespace Expr

/-- Whether an expression does something to the host when it is evaluated as a statement. -/
def acts : Expr → Bool
  | .tween _ | .setActive _ | .callback => true
  | _ => false

/-- Whether an expression has an operator that gives a truth value. -/
def decides : Expr → Bool
  | .unary .not _ | .binary (.comparison _) _ _ | .binary (.logical _) _ _ => true
  | _ => false

theorem decides_of_acts : ∀ {e : Expr}, e.acts = true → e.decides = false
  | .tween _, _ | .setActive _, _ | .callback, _ => rfl

section monad

variable {m : Type → Type} [Monad m] (read : String → m (Option Float))

theorem views_of_acts : ∀ {e : Expr}, e.acts = true →
    e.asNumber read = pure 0 ∧ e.asTruth read = pure true
  | .tween _, _ | .setActive _, _ | .callback, _ => ⟨rfl, rfl⟩

variable [LawfulMonad m]

/-- The truth view is the number view with its value carried over. -/
theorem asTruth_eq : ∀ {e : Expr}, e.acts = false →
    e.asTruth read = isPositive <$> e.asNumber read
  | .number _, _ | .variable _, _ | .unary .neg _, _ | .binary (.arithmetic _) _ _, _ => by
    simp [asTruth, asNumber]
  | .unary .not _, _ | .binary (.comparison _) _ _, _ => by
    simp [asTruth, asNumber, isPositive_indicator]
  | .conditional c yes no, _ => by
    rw [asTruth, asNumber, map_bind]
    refine bind_congr fun holds => ?_
    cases holds <;> simp
  | .binary (.logical .or) l r, _ => by
    rw [asTruth, asNumber, map_bind]
    refine bind_congr fun holds => ?_
    cases holds <;> simp [isPositive_indicator]
  | .binary (.logical .and) l r, _ => by
    rw [asTruth, asNumber, map_bind]
    refine bind_congr fun holds => ?_
    cases holds <;> simp [isPositive_indicator]

theorem asNumber_eq : ∀ {e : Expr}, e.decides = true →
    e.asNumber read = indicator <$> e.asTruth read
  | .unary .not _, _ | .binary (.comparison _) _ _, _ => by simp [asTruth, asNumber]
  | .binary (.logical .or) l r, _ => by
    rw [asTruth, asNumber, map_bind]
    refine bind_congr fun holds => ?_
    cases holds <;> simp
  | .binary (.logical .and) l r, _ => by
    rw [asTruth, asNumber, map_bind]
    refine bind_congr fun holds => ?_
    cases holds <;> simp

end monad

end Expr

/-! ## Views in a context -/

namespace Context

variable {σ ο τ : Type} (c : Context σ ο τ) {e : Expr} {s s' : σ}

theorem views_of_acts (h : e.acts = true) : c.number e = pure 0 ∧ c.truth e = pure true :=
  e.views_of_acts c.readVariable h

theorem truth_run_of_number (h : e.acts = false) {v : Float}
    (number : (c.number e).run s = (v, s')) : (c.truth e).run s = (isPositive v, s') := by
  have truth_eq : c.truth e = isPositive <$> c.number e := e.asTruth_eq c.readVariable h
  rw [truth_eq, StateT.run_map, number]
  rfl

theorem number_run_of_truth (h : e.decides = true) {b : Bool}
    (truth : (c.truth e).run s = (b, s')) : (c.number e).run s = (indicator b, s') := by
  have number_eq : c.number e = indicator <$> c.truth e := e.asNumber_eq c.readVariable h
  rw [number_eq, StateT.run_map, truth]
  rfl

/-- Whatever the host, both views of an expression ask it for the same variables `names`, in the
same order and as often, and leave it in the same state. The truth view says whether the number view
is positive, which what is not a number is not; where an operator gives a truth value, the number
view is `1` or `0` by it. What acts on the host asks for nothing and is zero and true. -/
theorem views_agree (e : Expr) (s : σ) :
    ∃ (names : List String) (v : Float) (b : Bool) (s' : σ),
      (c.noting.number e).run ([], s) = (v, names.map .read, s') ∧
      (c.noting.truth e).run ([], s) = (b, names.map .read, s') ∧
      (c.number e).run s = (v, s') ∧ (c.truth e).run s = (b, s') ∧
      (e.acts = false → b = decide (v > 0) ∧ (v.isNaN → b = false)) ∧
      (e.decides = true → v = if b then 1 else 0) ∧
      (e.acts = true → names = [] ∧ s' = s ∧ v = 0 ∧ b = true) := by
  cases acts : e.acts with
  | false =>
    obtain ⟨names, noted⟩ := (c.asksOnlyReads_number e).exists_names [] s
    have truth := c.truth_run_of_number acts (Eq.refl ((c.number e).run s))
    refine ⟨names, _, _, _, noted, c.noting.truth_run_of_number acts noted, rfl, truth,
      fun _ => ⟨rfl, isPositive_of_isNaN⟩, fun decides => ?_, fun h => nomatch h⟩
    exact congrArg Prod.fst (c.number_run_of_truth decides truth)
  | true =>
    obtain ⟨number, truth⟩ := c.views_of_acts acts
    obtain ⟨number_noting, truth_noting⟩ := c.noting.views_of_acts acts
    rw [number, truth, number_noting, truth_noting]
    refine ⟨[], 0, true, s, rfl, rfl, rfl, rfl, (fun h => nomatch h), fun decides => ?_,
      fun _ => ⟨rfl, rfl, rfl, rfl⟩⟩
    -- what acts has no operator
    rw [e.decides_of_acts acts] at decides
    cases decides

end Context

end TweenScript
