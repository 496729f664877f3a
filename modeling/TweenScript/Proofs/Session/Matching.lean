import TweenScript.Proofs.Scopes
import TweenScript.Proofs.Session

/-!
# Recorders that match

Recorders match if they differ in what waits for their tweens and in nothing else, and there one
continuation is related to the other. If related continuations do the same when they are resumed, then
recorders that match stay so and give the same answers, whatever is done to both of them
(`engine_agrees`).
-/

namespace TweenScript

/-- Continuations related by `K` that wait for the same tween. -/
def WaitAlike (K : Continuation → Continuation → Prop) (p q : Nat × Continuation) : Prop :=
  p.1 = q.1 ∧ K p.2 q.2

/-- The same outcome, and states related by `S`. -/
def SameStep {σ₁ σ₂ : Type} (S : σ₁ → σ₂ → Prop) (x : Except Fault Answer × σ₁)
    (y : Except Fault Answer × σ₂) : Prop :=
  x.1 = y.1 ∧ S x.2 y.2

section traces

variable {σ₁ σ₂ α : Type} {E₁ : Engine σ₁} {E₂ : Engine σ₂} {S : σ₁ → σ₂ → Prop} {s₁ : σ₁} {s₂ : σ₂}

theorem Engine.trace_related {ops₁ ops₂ : List Operation}
    (h : List.Forall₂ (fun op₁ op₂ => Related S (op₁.perform E₁).run (op₂.perform E₂).run (Alike S))
      ops₁ ops₂) (hs : S s₁ s₂) :
    List.Forall₂ (SameStep S) (E₁.trace s₁ ops₁) (E₂.trace s₂ ops₂) := by
  induction h generalizing s₁ s₂ with
  | nil => exact .nil
  | cons first _ ih =>
    have step := first s₁ s₂ hs
    exact .cons step (ih step.2)

theorem Engine.trace_map_related {f g : α → Operation}
    (h : ∀ a, Related S ((f a).perform E₁).run ((g a).perform E₂).run (Alike S)) (as : List α)
    (hs : S s₁ s₂) :
    List.Forall₂ (SameStep S) (E₁.trace s₁ (as.map f)) (E₂.trace s₂ (as.map g)) := by
  apply Engine.trace_related _ hs
  rw [List.forall₂_map_left_iff, List.forall₂_map_right_iff]
  exact List.forall₂_same.mpr fun a _ => h a

end traces

namespace Recorder

variable {K : Continuation → Continuation → Prop}

/-- The second recorder is the first one, but for the continuations that wait: those are related by
`K`. -/
def Matches (K : Continuation → Continuation → Prop) (r r' : Recorder) : Prop :=
  ∃ waiting, r' = { r with pending := waiting } ∧
    List.Forall₂ (WaitAlike K) r.pending waiting

theorem Matches.refl (hK : ∀ k, K k k) (r : Recorder) : r.Matches K r :=
  ⟨r.pending, rfl, List.forall₂_same.mpr fun p _ => ⟨rfl, hK p.2⟩⟩

/-! ## Evaluation -/

theorem Matches.configure {r r' : Recorder} (h : r.Matches K r') (id : Nat) {s s' : Setting}
    (related : s.Relates K s') : (r.configure id s).Matches K (r'.configure id s') := by
  obtain ⟨waiting, rfl, paired⟩ := h
  cases related with
  | @plain s plain =>
    cases s with
    | andThen k => exact plain.elim
    | _ => exact ⟨waiting, rfl, paired⟩
  | @andThen k k' hk =>
    exact ⟨waiting ++ [(id, k')], rfl, List.rel_append paired (.cons ⟨rfl, hk⟩ .nil)⟩

theorem respects_matches (hK : ∀ k, K k k) : host.Respects K (Matches K) where
  refl := .refl hK
  resolve name := by
    rintro r _ ⟨waiting, rfl, paired⟩
    have resolve_eq : { r with pending := waiting }.resolve name = r.resolve name := rfl
    have run_eq (r : Recorder) :
        (host.resolveObject name).run.run r = (r.resolve name, r) :=
      resolveObject_run [] name r
    rw [run_eq, run_eq, resolve_eq]
    exact ⟨rfl, waiting, rfl, paired⟩
  read name := by
    rintro r _ ⟨waiting, rfl, paired⟩
    exact ⟨rfl, waiting, rfl, paired⟩
  setActive object active := by
    rintro r _ ⟨waiting, rfl, paired⟩
    exact ⟨rfl, waiting, rfl, paired⟩
  callback := by
    rintro r _ ⟨waiting, rfl, paired⟩
    exact ⟨rfl, waiting, rfl, paired⟩
  create object channel duration target := by
    rintro r _ ⟨waiting, rfl, paired⟩
    exact ⟨rfl, waiting, rfl, paired⟩
  configure id _ _ related := by
    intro r r' h
    exact ⟨rfl, h.configure id related⟩

/-- A recorder cannot tell scopes that agree, but for what waits in them. -/
theorem agrees_simulates {scope scope' : Scope} (agree : scope.Agrees scope') :
    Simulates (context scope) (context scope') (Matches Continuation.Agrees) (· = ·)
      fun a b r r' => a = b ∧ r.Matches Continuation.Agrees r' :=
  (respects_matches .refl).simulates agree fun _ => ⟨rfl, agree⟩

/-! ## Completion -/

/-- Related continuations do the same when they are resumed. -/
def ResumeAlike (K : Continuation → Continuation → Prop) : Prop :=
  ∀ {k k' : Continuation}, K k k' →
    Related (Matches K) (k.resume host).run (k'.resume host).run (Alike (Matches K))

theorem resumeAlike_agrees : ResumeAlike Continuation.Agrees :=
  (respects_matches .refl).resume

theorem Matches.finish {r r' : Recorder} (h : r.Matches K r') (id : Nat) :
    List.Forall₂ K (r.finish id).1 (r'.finish id).1 ∧
      (r.finish id).2.Matches K (r'.finish id).2 := by
  obtain ⟨waiting, rfl, paired⟩ := h
  have same {p q : Nat × Continuation} (hpq : WaitAlike K p q) : (p.1 == id) = (q.1 == id) := by
    rw [hpq.1]
  simp only [Recorder.finish, List.partition_eq_filter_filter]
  refine ⟨?_, _, rfl, ?_⟩
  · refine List.rel_map (fun p q hpq => hpq.2) (List.rel_filter (fun p q hpq => ?_) paired)
    simp only [same hpq]
  · refine List.rel_filter (fun p q hpq => ?_) paired
    simp only [Function.comp_apply, same hpq]

namespace ResumeAlike

theorem resumeAll (h : ResumeAlike K) {ks ks' : List Continuation} (related : List.Forall₂ K ks ks') :
    Related (Matches K) (resumeAll ks) (resumeAll ks') (Alike (Matches K)) := by
  induction related with
  | nil => exact .pure_alike _
  | cons first _ ih =>
    rw [Recorder.resumeAll, Recorder.resumeAll]
    exact (h first).bind_alike fun outcome => ih.bind_alike fun later => .pure_alike _

theorem complete (h : ResumeAlike K) (id : Nat) :
    Related (Matches K) (complete id).run (complete id).run (Alike (Matches K)) := by
  intro r r' matched
  have open_eq : r'.isOpen id = r.isOpen id := by
    obtain ⟨waiting, rfl, -⟩ := matched
    rfl
  rw [complete_run_eq, complete_run_eq, open_eq]
  split
  · obtain ⟨ready, finished⟩ := matched.finish id
    have resumed := h.resumeAll ready _ _ finished
    rw [close_run_eq, close_run_eq]
    exact ⟨congrArg verdict resumed.1, resumed.2⟩
  · exact ⟨rfl, matched⟩

theorem completeRest (h : ResumeAlike K) (done : Nat) {r r' : Recorder} (matched : r.Matches K r') :
    Alike (Matches K) (completeRest done r).1 (completeRest done r').1 (completeRest done r).2
      (completeRest done r').2 := by
  -- The tweens are the same in both recorders, so both go on with the same one.
  have plays_eq {r r' : Recorder} (matched : r.Matches K r') : r'.playing? = r.playing? := by
    obtain ⟨waiting, rfl, -⟩ := matched
    rfl
  fun_induction Recorder.completeRest done r generalizing r' with
  | case1 done r plays =>
    rw [completeRest_of_none done ((plays_eq matched).trans plays)]
    exact ⟨rfl, matched⟩
  | case2 done r id plays f r₁ hc =>
    have completed := h.complete id r r' matched
    rw [hc] at completed
    cases hc' : (Recorder.complete id).run.run r' with
    | mk outcome r₂ =>
      rw [hc'] at completed
      obtain ⟨answer, states⟩ := completed
      cases answer
      rw [completeRest_of_error done ((plays_eq matched).trans plays) hc']
      exact ⟨rfl, states⟩
  | case3 done r id plays b r₁ hc ih =>
    have completed := h.complete id r r' matched
    rw [hc] at completed
    cases hc' : (Recorder.complete id).run.run r' with
    | mk outcome r₂ =>
      rw [hc'] at completed
      obtain ⟨answer, states⟩ := completed
      cases answer
      rw [completeRest_of_ok done ((plays_eq matched).trans plays) hc']
      exact ih states

end ResumeAlike

/-! ## Sessions -/

/-- What waits does not matter to an operation, but for the continuations it resumes. -/
theorem engine_agrees (hK : ∀ k, K k k) (h : ResumeAlike K) :
    engine.Agrees engine (Matches K) where
  host scope := (respects_matches hK).simulates (.refl scope) fun _ => hK _
  edit := by
    rintro e r _ ⟨waiting, rfl, paired⟩
    cases e <;> exact ⟨waiting, rfl, paired⟩
  complete := h.complete
  completeAll := fun _ _ matched => h.completeRest 0 matched
  discard := by
    rintro r _ ⟨waiting, rfl, paired⟩
    exact ⟨[], rfl, .nil⟩

end Recorder

end TweenScript
