import Mathlib.Data.List.Forall2
import TweenScript.Proofs.Calls

/-!
# Scopes that agree

Scopes agree if names stand for the same paths in them and variables have the same values. A host does
not look into the scope of a continuation: all it can do is resume it. Whatever is evaluated in a scope
is then evaluated the same way in a scope that agrees with it, now (`Respects.statement`) and when a
continuation is resumed (`Respects.resume`), and with the same calls of the host (`Respects.noting`).
-/

namespace TweenScript

/-- Names stand for the same paths in both scopes, and variables have the same values. -/
structure Scope.Agrees (s s' : Scope) : Prop where
  path : ∀ name, s.path name = s'.path name
  value : ∀ name, s.value? name = s'.value? name

namespace Scope.Agrees

theorem refl (s : Scope) : s.Agrees s :=
  ⟨fun _ => rfl, fun _ => rfl⟩

theorem cons {t t' : NameTable} {s s' : Scope} (h : s.Agrees s')
    (path : ∀ name, t.path name = t'.path name) (value : ∀ name, t.value? name = t'.value? name) :
    Agrees (t :: s) (t' :: s') where
  path name := by
    show s.path (t.path name) = s'.path (t'.path name)
    rw [path, h.path]
  value name := by
    rw [value?, value?, h.value, value]

end Scope.Agrees

/-- The same is left to do, in scopes that agree. -/
structure Continuation.Agrees (k k' : Continuation) : Prop where
  body : k.body = k'.body
  scope : k.scope.Agrees k'.scope

theorem Continuation.Agrees.refl (k : Continuation) : k.Agrees k :=
  ⟨rfl, .refl k.scope⟩

/-- The same setting, or the registration of continuations related by `K`. -/
inductive Setting.Relates (K : Continuation → Continuation → Prop) : Setting → Setting → Prop where
  | plain {s : Setting} (h : s.IsPlain) : Relates K s s
  | andThen {k k' : Continuation} (h : K k k') : Relates K (.andThen k) (.andThen k')

variable {σ ο τ α : Type} {K : Continuation → Continuation → Prop} {S : σ → σ → Prop}

/-! ## Hosts -/

/-- The host tells neither states apart that `S` relates nor continuations that `K` relates: from such
states, and given such continuations, its operations answer the same and end in such states. -/
structure Host.Respects (h : Host σ ο τ) (K : Continuation → Continuation → Prop)
    (S : σ → σ → Prop) : Prop where
  refl : ∀ s, S s s
  resolve : ∀ name, Related S (h.resolveObject name).run (h.resolveObject name).run (Alike S)
  read : ∀ name, Related S (h.readVariable name) (h.readVariable name) (Alike S)
  setActive : ∀ object active,
    Related S (h.setActive object active) (h.setActive object active) (Alike S)
  callback : Related S h.callback h.callback (Alike S)
  create : ∀ object channel duration target,
    Related S (h.createTween object channel duration target).run
      (h.createTween object channel duration target).run (Alike S)
  configure : ∀ tween {s s'}, Setting.Relates K s s' →
    Related S (h.configure tween s) (h.configure tween s') (Alike S)

namespace Host.Respects

variable {h : Host σ ο τ} {scope scope' : Scope}

/-- The host seen through scopes that agree, if the bodies registered in them are related. -/
theorem simulates (r : h.Respects K S) (agree : scope.Agrees scope')
    (bodies : ∀ body, K ⟨body, scope⟩ ⟨body, scope'⟩) :
    Simulates ⟨h, scope⟩ ⟨h, scope'⟩ S (· = ·) fun a b s s' => a = b ∧ S s s' where
  resolve name := by
    rw [Context.resolveObject, Context.resolveObject, agree.path]
    exact (r.resolve _).mono fun _ _ _ _ => outcomes_alike_iff.mpr
  read name := by
    rw [Context.readVariable, Context.readVariable, agree.value]
    exact (r.read name).bind_alike fun _ => .pure_alike _
  readFor a b name := by
    rw [Context.readVariable, Context.readVariable, agree.value]
    apply Related.given
    intro same
    exact (r.read name).bind_alike fun _ => .pure fun _ _ kept => ⟨rfl, same, kept⟩
  setActive a b active := by
    rintro rfl
    exact (r.setActive a active).mono fun _ _ _ _ => And.right
  callback := r.callback.mono fun _ _ _ _ => And.right
  create a b channel duration target := by
    rintro rfl
    exact (r.create a channel duration target).mono fun _ _ _ _ => outcomes_alike_iff.mpr
  configure a b s plain := by
    apply Related.given
    rintro rfl
    exact (r.configure a (.plain plain)).mono fun _ _ _ _ kept => ⟨rfl, kept.2⟩
  register a b body := by
    apply Related.given
    rintro rfl
    exact (r.configure a (.andThen (bodies body))).mono fun _ _ _ _ kept => ⟨rfl, kept.2⟩
  release a b s s' kept := kept.2

/-- A statement is evaluated the same way in scopes that agree. -/
theorem statement (r : h.Respects Continuation.Agrees S) (agree : scope.Agrees scope')
    (body : Statement) :
    Related S (body.evaluate ⟨h, scope⟩).run (body.evaluate ⟨h, scope'⟩).run (Alike S) :=
  ((r.simulates agree fun _ => ⟨rfl, agree⟩).statement body).mono fun _ _ _ _ =>
    Outcomes.alike_unit

/-- Continuations that agree do the same when they are resumed. -/
theorem resume (r : h.Respects Continuation.Agrees S) {k k' : Continuation} (agree : k.Agrees k') :
    Related S (k.resume h).run (k'.resume h).run (Alike S) := by
  rw [Continuation.resume, Continuation.resume, agree.body]
  exact r.statement agree.scope k'.body

end Host.Respects

/-! ## Calls -/

/-- The same call, or a registration of continuations related by `K` for the same tween. -/
inductive Call.Relates (K : Continuation → Continuation → Prop) : Call ο τ → Call ο τ → Prop where
  | same (call : Call ο τ) : Relates K call call
  | configure (tween : τ) {s s' : Setting} (h : s.Relates K s') :
    Relates K (.configure tween s) (.configure tween s')

/-- One by one the calls noted are related, and so are the states. -/
def Noted.Relates (K : Continuation → Continuation → Prop) (S : σ → σ → Prop)
    (n n' : Noted σ ο τ) : Prop :=
  List.Forall₂ (Call.Relates K) n.1 n'.1 ∧ S n.2 n'.2

theorem Call.note_related {call call' : Call ο τ} (related : call.Relates K call')
    {x y : StateM σ α} (h : Related S x y (Alike S)) :
    Related (Noted.Relates K S) (call.note x) (call'.note y) (Alike (Noted.Relates K S)) := by
  intro n n' ⟨calls, states⟩
  obtain ⟨answer, kept⟩ := h n.2 n'.2 states
  exact ⟨answer, List.rel_append calls (.cons related .nil), kept⟩

/-- The host noting its calls is asked for the same, but for the continuations. -/
theorem Host.Respects.noting {h : Host σ ο τ} (r : h.Respects K S) :
    h.noting.Respects K (Noted.Relates K S) where
  refl n := ⟨List.forall₂_same.mpr fun call _ => .same call, r.refl n.2⟩
  resolve name := Call.note_related (.same _) (r.resolve name)
  read name := Call.note_related (.same _) (r.read name)
  setActive object active := Call.note_related (.same _) (r.setActive object active)
  callback := Call.note_related (.same _) r.callback
  create object channel duration target :=
    Call.note_related (.same _) (r.create object channel duration target)
  configure tween _ _ related :=
    Call.note_related (.configure tween related) (r.configure tween related)

end TweenScript
