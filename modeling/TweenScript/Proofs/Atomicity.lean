import TweenScript.Recorder

/-!
# Where evaluation stops

An expression statement that ends in a fault leaves the recorder as it was: argument counts and the
object name are looked at first, and once the object is found nothing can go wrong any more. So a
program that ends in a fault has done what stands before one of its expression statements, and
nothing else.
-/

namespace TweenScript

/-! ## Runs of actions -/

section run

variable {ε σ α β : Type} {x : ExceptT ε (StateM σ) α} {f : α → ExceptT ε (StateM σ) β}

theorem run_bind_ok {s s' : σ} {a : α} (h : x.run.run s = (.ok a, s')) :
    (x >>= f).run.run s = (f a).run.run s' := by
  rw [ExceptT.run_bind, StateT.run_bind, h]
  rfl

theorem run_bind_error {s s' : σ} {e : ε} (h : x.run.run s = (.error e, s')) :
    (x >>= f).run.run s = (.error e, s') := by
  rw [ExceptT.run_bind, StateT.run_bind, h]
  rfl

theorem run_lift {y : StateM σ α} {s s' : σ} {a : α} (h : y.run s = (a, s')) :
    (liftM y : ExceptT ε (StateM σ) α).run.run s = (.ok a, s') := by
  show (do let a ← y; pure (Except.ok a)).run s = _
  rw [StateT.run_bind, h]
  rfl

end run

section action

variable {σ α β : Type} {x : Action σ α} {f : α → Action σ β}

theorem run_discard (s : σ) : ((discard x).run.run s).2 = (x.run.run s).2 := by
  show (((do let _ ← x; pure ()) : Action σ Unit).run.run s).2 = _
  cases h : x.run.run s with
  | mk outcome s' =>
    cases outcome with
    | ok a =>
      rw [run_bind_ok h]
      rfl
    | error f => rw [run_bind_error h]

theorem run_bind_eq_error_iff {s s' : σ} {e : Fault} :
    (x >>= f).run.run s = (.error e, s') ↔
      x.run.run s = (.error e, s') ∨
        ∃ a s₁, x.run.run s = (.ok a, s₁) ∧ (f a).run.run s₁ = (.error e, s') := by
  constructor
  · intro h
    cases hx : x.run.run s with
    | mk outcome s₁ =>
      cases outcome with
      | error e₁ =>
        rw [run_bind_error hx] at h
        cases h
        exact .inl rfl
      | ok a =>
        rw [run_bind_ok hx] at h
        exact .inr ⟨a, s₁, rfl, h⟩
  · rintro (h | ⟨a, s₁, h₁, h₂⟩)
    · exact run_bind_error h
    · rw [run_bind_ok h₁]
      exact h₂

/-- What `x` does to the state is nothing. -/
def Quiet (x : Action σ α) : Prop :=
  ∀ s, (x.run.run s).2 = s

/-- No run of `x` ends in a fault. -/
def Sure (x : Action σ α) : Prop :=
  ∀ s s' e, x.run.run s ≠ (.error e, s')

/-- A run of `x` that ends in a fault leaves the state as it was. -/
def Atomic (x : Action σ α) : Prop :=
  ∀ s s' e, x.run.run s = (.error e, s') → s' = s

theorem Sure.lift (x : StateM σ α) : Sure (liftM x : Action σ α) := by
  intro s s' e h
  cases h

theorem Sure.bind (hx : Sure x) (hf : ∀ a, Sure (f a)) : Sure (x >>= f) := by
  intro s s' e h
  rcases run_bind_eq_error_iff.mp h with h | ⟨a, s₁, -, h⟩
  · exact hx s s' e h
  · exact hf a s₁ s' e h

theorem Quiet.atomic (h : Quiet x) : Atomic x := by
  intro s s' e hx
  have kept := h s
  rw [hx] at kept
  exact kept

theorem Sure.atomic (h : Sure x) : Atomic x :=
  fun s s' e hx => (h s s' e hx).elim

theorem Quiet.bind_atomic (hx : Quiet x) (hf : ∀ a, Atomic (f a)) : Atomic (x >>= f) := by
  intro s s' e h
  rcases run_bind_eq_error_iff.mp h with h | ⟨a, s₁, h₁, h₂⟩
  · exact hx.atomic s s' e h
  · have kept := hx s
    rw [h₁] at kept
    rw [hf a s₁ s' e h₂]
    exact kept

theorem Atomic.bind_sure (hx : Atomic x) (hf : ∀ a, Sure (f a)) : Atomic (x >>= f) := by
  intro s s' e h
  rcases run_bind_eq_error_iff.mp h with h | ⟨a, s₁, -, h⟩
  · exact hx s s' e h
  · exact (hf a s₁ s' e h).elim

end action

/-! ## Expression statements -/

section expression

variable (scope : Scope)

theorem quiet_except {σ α : Type} (x : Except Fault α) : Quiet (liftM x : Action σ α) := by
  intro s
  cases x <;> rfl

theorem quiet_resolveObject (name : String) :
    Quiet ((Recorder.context scope).resolveObject name) := by
  intro r
  show (((liftM (r.resolve ((Recorder.context scope).scope.path name)) :
    Action Recorder String).run.run r).2) = r
  exact quiet_except _ r

theorem atomic_make (p : Plan) : Atomic ((Recorder.context scope).make p) := by
  refine (quiet_resolveObject scope p.object).bind_atomic fun object => Sure.atomic ?_
  refine (Sure.lift _).bind fun duration => (Sure.lift _).bind fun target => ?_
  exact (Sure.lift _).bind fun t => (Sure.lift _).bind fun _ => Sure.lift (pure t)

theorem atomic_chain (chain : Chain) : Atomic (chain.evaluate (Recorder.context scope)) :=
  (quiet_except chain.plan).bind_atomic (atomic_make scope)

theorem atomic_setActive (args : List Expr) :
    Atomic (evaluateSetActive (Recorder.context scope) args) := by
  unfold evaluateSetActive
  split
  · rename_i object flag
    refine (quiet_except (objectName "Active" object)).bind_atomic fun name => ?_
    refine (quiet_resolveObject scope name).bind_atomic fun path => Sure.atomic ?_
    exact (Sure.lift _).bind fun active => Sure.lift _
  · exact Quiet.atomic fun _ => rfl

theorem atomic_expr (e : Expr) : Atomic (e.evaluate (Recorder.context scope)) := by
  unfold Expr.evaluate
  split
  · exact (atomic_chain scope _).bind_sure fun _ => Sure.lift (pure ())
  · exact atomic_setActive scope _
  · exact (Sure.lift _).atomic
  · exact ((Sure.lift _).bind fun _ => Sure.lift (pure ())).atomic

end expression

/-! ## Places in programs -/

/-- The way to a place in a program: the conditions that lead to it and what stands before it. -/
inductive Front where
  | here
  | inside (condition : Expr) (front : Front)
  | behind (before : List Statement) (front : Front)

namespace Front

/-- The program up to the place, where `s` stands, and with nothing after it. -/
def fill : Front → Statement → Statement
  | here, s => s
  | inside condition front, s => .when condition (front.fill s)
  | behind before front, s => .block (before ++ [front.fill s])

/-- The program cut off just before the place. -/
def cut (front : Front) : Statement :=
  front.fill (.block [])

/-- The expression statement `e` stands at the place in a program. -/
inductive LeadsTo (e : Expr) : Front → Statement → Prop where
  | here : LeadsTo e here (.expr e)
  | inside {front : Front} {condition : Expr} {body : Statement} (h : LeadsTo e front body) :
    LeadsTo e (inside condition front) (.when condition body)
  | behind {front : Front} {before after : List Statement} {s : Statement}
    (h : LeadsTo e front s) : LeadsTo e (behind before front) (.block (before ++ s :: after))

/-- Evaluation from the state `r` gets to the place, and has the state `r'` there: whatever stands at
the place is done from `r'`. -/
def Reaches (scope : Scope) (front : Front) (r r' : Recorder) : Prop :=
  ∀ s : Statement, ((front.fill s).evaluate (Recorder.context scope)).run.run r =
    (s.evaluate (Recorder.context scope)).run.run r'

end Front

/-! ## Programs -/

section program

variable (scope : Scope)

theorem evaluateAll_append {σ ο τ : Type} (c : Context σ ο τ) (xs ys : List Statement) :
    evaluateAll c (xs ++ ys) = (do evaluateAll c xs; evaluateAll c ys) := by
  induction xs with
  | nil => simp [evaluateAll]
  | cons x xs ih => simp [evaluateAll, ih]

theorem evaluateAll_singleton {σ ο τ : Type} (c : Context σ ο τ) (s : Statement) :
    evaluateAll c [s] = s.evaluate c := by
  simp [evaluateAll]

mutual

/-- A program that ends in a fault got to one of its expression statements, which ends in it. -/
theorem exists_front : ∀ (s : Statement) {r r' : Recorder} {fault : Fault},
    (s.evaluate (Recorder.context scope)).run.run r = (.error fault, r') →
      ∃ front e, Front.LeadsTo e front s ∧ front.Reaches scope r r' ∧
        (e.evaluate (Recorder.context scope)).run.run r' = (.error fault, r')
  | .block body, r, r', fault, h => by
    obtain ⟨before, s, after, front, e, r₁, rfl, leads, done, reaches, fails⟩ :=
      exists_front_of_all body h
    refine ⟨.behind before front, e, .behind leads, fun x => ?_, fails⟩
    rw [Front.fill, Statement.evaluate, evaluateAll_append, run_bind_ok done,
      evaluateAll_singleton]
    exact reaches x
  | .when condition body, r, r', fault, h => by
    rw [Statement.evaluate] at h
    rcases run_bind_eq_error_iff.mp h with h | ⟨holds, r₁, holds_eq, h⟩
    · exact (Sure.lift _ _ _ _ h).elim
    · cases holds with
      | false => exact (Sure.lift (pure ()) _ _ _ h).elim
      | true =>
        obtain ⟨front, e, leads, reaches, fails⟩ := exists_front body h
        refine ⟨.inside condition front, e, .inside leads, fun x => ?_, fails⟩
        rw [Front.fill, Statement.evaluate, run_bind_ok holds_eq]
        exact reaches x
  | .expr e, r, r', fault, h => by
    rw [Statement.evaluate] at h
    -- the statement leaves the recorder alone, so the place is reached in the state of the fault
    obtain rfl := atomic_expr scope e r r' fault h
    exact ⟨.here, e, .here, fun _ => rfl, h⟩

theorem exists_front_of_all : ∀ (body : List Statement) {r r' : Recorder} {fault : Fault},
    (evaluateAll (Recorder.context scope) body).run.run r = (.error fault, r') →
      ∃ before s after front e r₁, body = before ++ s :: after ∧ Front.LeadsTo e front s ∧
        (evaluateAll (Recorder.context scope) before).run.run r = (.ok (), r₁) ∧
        front.Reaches scope r₁ r' ∧
        (e.evaluate (Recorder.context scope)).run.run r' = (.error fault, r')
  | [], r, r', fault, h => (Sure.lift (pure ()) _ _ _ h).elim
  | s :: body, r, r', fault, h => by
    rw [evaluateAll] at h
    rcases run_bind_eq_error_iff.mp h with h | ⟨⟨⟩, r₁, done, h⟩
    · obtain ⟨front, e, leads, reaches, fails⟩ := exists_front s h
      exact ⟨[], s, body, front, e, r, rfl, leads, rfl, reaches, fails⟩
    · obtain ⟨before, s', after, front, e, r₂, rfl, leads, done', reaches, fails⟩ :=
        exists_front_of_all body h
      refine ⟨s :: before, s', after, front, e, r₂, rfl, leads, ?_, reaches, fails⟩
      rw [evaluateAll, run_bind_ok done]
      exact done'

end

/-- What stands after a place that ends in a fault makes no difference. -/
theorem Front.LeadsTo.evaluate_error {e : Expr} {front : Front} {s : Statement}
    (leads : front.LeadsTo e s) {r r' : Recorder} {fault : Fault}
    (h : ((front.fill (.expr e)).evaluate (Recorder.context scope)).run.run r =
      (.error fault, r')) :
    (s.evaluate (Recorder.context scope)).run.run r = (.error fault, r') := by
  induction leads generalizing r with
  | here => exact h
  | @inside front condition body leads ih =>
    rw [Front.fill, Statement.evaluate] at h
    rw [Statement.evaluate]
    refine run_bind_eq_error_iff.mpr ((run_bind_eq_error_iff.mp h).imp_right ?_)
    rintro ⟨holds, r₁, holds_eq, h⟩
    refine ⟨holds, r₁, holds_eq, ?_⟩
    cases holds with
    | false => exact h
    | true => exact ih h
  | @behind front before after s leads ih =>
    rw [Front.fill, Statement.evaluate, evaluateAll_append, evaluateAll_singleton] at h
    rw [Statement.evaluate, evaluateAll_append]
    refine run_bind_eq_error_iff.mpr ((run_bind_eq_error_iff.mp h).imp_right ?_)
    rintro ⟨⟨⟩, r₁, done, h⟩
    refine ⟨(), r₁, done, ?_⟩
    rw [evaluateAll]
    exact run_bind_error (ih h)

/-- An expression statement that ends in a fault leaves the recorder as it was. A program ends in a
fault exactly if it leads to an expression statement that does, and then it leaves the recorder as
the program cut off just before that statement does. -/
theorem evaluate_fault :
    (∀ (e : Expr) (r r' : Recorder) (fault : Fault),
      (e.evaluate (Recorder.context scope)).run.run r = (.error fault, r') → r' = r) ∧
    (∀ (s : Statement) (r r' : Recorder) (fault : Fault),
      (s.evaluate (Recorder.context scope)).run.run r = (.error fault, r') ↔
        ∃ front e, Front.LeadsTo e front s ∧ front.Reaches scope r r' ∧
          (front.cut.evaluate (Recorder.context scope)).run.run r = (.ok (), r') ∧
          (e.evaluate (Recorder.context scope)).run.run r' = (.error fault, r')) := by
  refine ⟨fun e r r' fault h => atomic_expr scope e r r' fault h, fun s r r' fault => ?_⟩
  constructor
  · intro h
    obtain ⟨front, e, leads, reaches, fails⟩ := exists_front scope s h
    exact ⟨front, e, leads, reaches, reaches (.block []), fails⟩
  · rintro ⟨front, e, leads, reaches, -, fails⟩
    refine leads.evaluate_error scope ?_
    rw [reaches]
    exact fails

/-- The callback before the fault stays, the callback after it does not happen. -/
theorem evaluate_fault_between_callbacks :
    (∃ front e, Front.LeadsTo e front
        (.block [.expr .callback, .expr (.setActive []), .expr .callback]) ∧
      front.Reaches [] {} ({} : Recorder).call ∧
      (front.cut.evaluate (Recorder.context [])).run.run {} = (.ok (), ({} : Recorder).call) ∧
      (e.evaluate (Recorder.context [])).run.run ({} : Recorder).call =
        (.error (.arity "Active" "2" 0), ({} : Recorder).call)) ∧
    (((Expr.setActive []).evaluate (Recorder.context [])).run.run ({} : Recorder).call).2 =
      ({} : Recorder).call :=
  ⟨((evaluate_fault []).2 _ _ _ _).mp rfl, (evaluate_fault []).1 (.setActive []) _ _ _ rfl⟩

end program

end TweenScript
