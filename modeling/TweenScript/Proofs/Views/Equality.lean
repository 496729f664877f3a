import Mathlib
import TweenScript.Proofs.Views

/-!
# Equality of expressions

Two numbers count as equal if their difference is nearly zero. The difference of a finite number from
itself is zero, but that of an infinite one is not a number, so an infinite value does not equal
itself. The size of a difference is the same either way round (`nearlyEqual_comm`).

An equality looks its operands up one after the other. What it comes to is a matter of their values
if these do not depend on which operand comes first (`Context.Numbers`), and on a recorder they
never do.
-/

namespace TweenScript

/-! ## Differences -/

section differences

open Float.Model (Format UnpackedFloat)
open Float.Model.UnpackedFloat

variable {spec : Format}

theorem abs_unpack_congr {b b' : BitVec spec.numBits}
    (exponent : unpackExponent b = unpackExponent b')
    (mantissa : unpackMantissa b = unpackMantissa b') :
    (unpack spec b).abs = (unpack spec b').abs := by
  simp only [unpack, exponent, mantissa]
  split_ifs <;> rfl

theorem abs_unpack_pack (x : UnpackedFloat) :
    (unpack spec (pack spec x)).abs = (unpack spec (pack spec x.abs)).abs := by
  cases x with
  | notANumber => rfl
  | infinity s =>
    apply abs_unpack_congr <;>
      simp only [UnpackedFloat.abs, pack, packedInfinity, unpackExponent_packComponents,
        unpackMantissa_packComponents]
  | zero s =>
    apply abs_unpack_congr <;>
      simp only [UnpackedFloat.abs, pack, packedZero, unpackExponent_packComponents,
        unpackMantissa_packComponents]
  | finite s m e pos =>
    apply abs_unpack_congr <;> simp only [UnpackedFloat.abs, pack, packedInfinity] <;> split_ifs <;>
      simp only [unpackExponent_packComponents, unpackMantissa_packComponents]

theorem abs_round (s s' : Sign) (m : Nat) (e : Int) :
    (UnpackedFloat.round spec s m e).abs = (UnpackedFloat.round spec s' m e).abs := by
  simp only [UnpackedFloat.round, roundWithAccuracy]
  split_ifs <;> rfl

theorem abs_normalize_neg (m e : Int) (s : Sign) :
    (UnpackedFloat.normalize spec (-m) e s).abs = (UnpackedFloat.normalize spec m e s).abs := by
  unfold UnpackedFloat.normalize
  rcases Int.lt_trichotomy m 0 with h | rfl | h
  · have h' : 0 < -m := by omega
    rw [Int.compare_eq_lt.mpr h, Int.compare_eq_gt.mpr h']
    exact abs_round ..
  · rfl
  · have h' : -m < 0 := by omega
    rw [Int.compare_eq_gt.mpr h, Int.compare_eq_lt.mpr h', Int.neg_neg]
    exact abs_round ..

theorem abs_sub_comm (x y : UnpackedFloat) : (sub spec x y).abs = (sub spec y x).abs := by
  cases x with
  | notANumber => cases y <;> rfl
  | infinity s =>
    cases y with
    | infinity s' => cases s <;> cases s' <;> rfl
    | _ => rfl
  | zero s =>
    cases y with
    | zero s' => cases s <;> cases s' <;> rfl
    | _ => rfl
  | finite s m e pos =>
    cases y with
    | finite s' m' e' pos' =>
      simp only [sub]
      rw [Int.min_comm, ← abs_normalize_neg, Int.neg_sub]
    | _ => rfl

theorem sub_self_eq (x : UnpackedFloat) :
    sub spec x x = if x.isFinite then .zero .positive else .notANumber := by
  cases x with
  | notANumber => rfl
  | infinity s => cases s <;> rfl
  | zero s => cases s <;> rfl
  | finite s m e pos =>
    simp only [sub, Int.sub_self, UnpackedFloat.normalize]
    rfl

theorem abs_difference (a b : Float) : (a - b).abs = (b - a).abs := by
  show Float.ofModel (Float.Model.pack (unpack _ (pack _ _)).abs) =
    Float.ofModel (Float.Model.pack (unpack _ (pack _ _)).abs)
  rw [abs_unpack_pack, abs_sub_comm, ← abs_unpack_pack]

end differences

theorem nearlyEqual_comm (a b : Float) : nearlyEqual a b = nearlyEqual b a := by
  rw [nearlyEqual, abs_difference, nearlyEqual]

/-- Exactly the finite numbers equal themselves. -/
theorem nearlyEqual_self (v : Float) : nearlyEqual v v = v.isFinite := by
  have difference : v - v = .ofModel (.pack (if v.isFinite then .zero .positive else .notANumber)) :=
    congrArg (fun x => Float.ofModel (.pack x)) (sub_self_eq _)
  rw [nearlyEqual, difference]
  cases v.isFinite with
  | true => decide +kernel
  | false => decide +kernel

/-! ## Equalities in a context -/

/-- The expression `a == b`. -/
abbrev Expr.equals (a b : Expr) : Expr :=
  .binary (.comparison .eq) a b

/-- The expression `a != b`. -/
abbrev Expr.differs (a b : Expr) : Expr :=
  .binary (.comparison .ne) a b

namespace Context

section equality

variable {σ ο τ : Type} (c : Context σ ο τ) (s : σ) (a b : Expr)

/-- From the state `s` on the expressions `a` and `b` have the numbers `v` and `w`, whichever of them
comes first. -/
structure Numbers (v w : Float) : Prop where
  left : ((c.number a).run s).1 = v
  behind_left : ((c.number b).run ((c.number a).run s).2).1 = w
  right : ((c.number b).run s).1 = w
  behind_right : ((c.number a).run ((c.number b).run s).2).1 = v

theorem truth_equals : ((c.truth (a.equals b)).run s).1 =
    nearlyEqual ((c.number a).run s).1 ((c.number b).run ((c.number a).run s).2).1 := rfl

variable {c s a b} {v w : Float}

theorem Numbers.truth_equals (h : c.Numbers s a b v w) :
    ((c.truth (a.equals b)).run s).1 = nearlyEqual v w := by
  rw [Context.truth_equals, h.left, h.behind_left]

theorem Numbers.swap (h : c.Numbers s a b v w) : c.Numbers s b a w v :=
  ⟨h.right, h.behind_right, h.left, h.behind_left⟩

end equality

end Context

theorem Recorder.numbers (scope : Scope) (r : Recorder) (a b : Expr) :
    (context scope).Numbers r a b (a.numberIn (r.look scope)) (b.numberIn (r.look scope)) := by
  constructor <;> simp only [number_run, look_noteReads]

/-- Whatever the host, an expression that has a finite number equals itself, and an expression that has
an infinite one differs from itself. Of two expressions either the equality or the inequality
holds, and both leave the host in the same state. An equality holds if and only if it holds the
other way round. All this is said of expressions whose numbers do not depend on which of them
comes first, and on a recorder that is every expression. -/
theorem equality_laws {σ ο τ : Type} (c : Context σ ο τ) (s : σ) :
    (∀ (e : Expr) (v : Float), c.Numbers s e e v v →
      ((c.truth (e.equals e)).run s).1 = v.isFinite ∧
        ((c.truth (e.differs e)).run s).1 = !v.isFinite) ∧
    (∀ a b : Expr, ((c.truth (a.differs b)).run s).1 = !((c.truth (a.equals b)).run s).1 ∧
      ((c.truth (a.differs b)).run s).2 = ((c.truth (a.equals b)).run s).2) ∧
    (∀ (a b : Expr) (v w : Float), c.Numbers s a b v w →
      ((c.truth (a.equals b)).run s).1 = ((c.truth (b.equals a)).run s).1) ∧
    ∀ (scope : Scope) (r : Recorder) (a b : Expr), (Recorder.context scope).Numbers r a b
      (a.numberIn (r.look scope)) (b.numberIn (r.look scope)) := by
  refine ⟨fun e v h => ?_, fun a b => ⟨rfl, rfl⟩, fun a b v w h => ?_, Recorder.numbers⟩
  · have equal : ((c.truth (e.equals e)).run s).1 = v.isFinite := by
      rw [h.truth_equals, nearlyEqual_self]
    exact ⟨equal, congrArg (! ·) equal⟩
  · rw [h.truth_equals, h.swap.truth_equals, nearlyEqual_comm]

/-- A third of a variable that the scope has. -/
theorem equality_laws_third :
    let e : Expr := .binary (.arithmetic .div) (.variable "a") (.number 3)
    let scope : Scope := [{ values := [("a", 1)] }]
    let c := Recorder.context scope
    let v := e.numberIn (({} : Recorder).look scope)
    c.Numbers {} e e v v ∧ v.isFinite ∧ ((c.truth (e.equals e)).run {}).1 = true := by
  intro e scope c v
  obtain ⟨reflexive, -, -, numbers⟩ := equality_laws c {}
  have same : c.Numbers {} e e v v := numbers scope {} e e
  have finite : v.isFinite := by decide +kernel
  exact ⟨same, finite, (reflexive e v same).1.trans finite⟩

/-- An infinite value is a number and does not equal itself. -/
theorem exists_number_differs :
    ¬ ∀ (e : Expr) (scope : Scope) (r : Recorder), let c := Recorder.context scope
      (((c.number e).run r).1).isNaN = false →
        ((c.truth (e.equals e)).run r).1 = true ∧ ((c.truth (e.differs e)).run r).1 = false := by
  intro reflexive
  let infinite : Expr := .binary (.arithmetic .div) (.number 1) (.number 0)
  have holds := (reflexive infinite [] {} (by decide +kernel)).1
  have fails : (((Recorder.context []).truth (infinite.equals infinite)).run {}).1 = false := by
    decide +kernel
  rw [fails] at holds
  cases holds

end TweenScript
