import TweenScript.Evaluation

/-!
# Simulation

A context simulates another one if a relation between their states is kept by every operation of the
two hosts, and if what they answer is related too. Then it is kept by everything that is evaluated
(`Simulates.statement`). A host that keeps an invariant is the case of a context that simulates
itself (`Maintains.statement`).
-/

namespace TweenScript

variable {σ₁ σ₂ α₁ α₂ β₁ β₂ : Type}

/-! ## Two runs -/

/-- From states related by `P`, the answers and the states after `x` and `y` are related by `Q`. -/
def Related (P : σ₁ → σ₂ → Prop) (x : StateM σ₁ α₁) (y : StateM σ₂ α₂)
    (Q : α₁ → α₂ → σ₁ → σ₂ → Prop) : Prop :=
  ∀ s₁ s₂, P s₁ s₂ → Q (x.run s₁).1 (y.run s₂).1 (x.run s₁).2 (y.run s₂).2

/-- The answers are the same and the states related by `P`. -/
def Alike {α : Type} (P : σ₁ → σ₂ → Prop) (a b : α) (s₁ : σ₁) (s₂ : σ₂) : Prop :=
  a = b ∧ P s₁ s₂

/-- Both end well and are related by `Q`, or both in the same fault with states related by `P`. -/
def Outcomes (P : σ₁ → σ₂ → Prop) (Q : α₁ → α₂ → σ₁ → σ₂ → Prop) :
    Except Fault α₁ → Except Fault α₂ → σ₁ → σ₂ → Prop
  | .ok a, .ok b, s₁, s₂ => Q a b s₁ s₂
  | .error f, .error g, s₁, s₂ => f = g ∧ P s₁ s₂
  | _, _, _, _ => False

theorem Outcomes.state {P : σ₁ → σ₂ → Prop} {a : Except Fault α₁} {b : Except Fault α₂} {s₁ : σ₁}
    {s₂ : σ₂} (h : Outcomes P (fun _ _ => P) a b s₁ s₂) : P s₁ s₂ := by
  rcases a with e | a <;> rcases b with e' | b
  · exact h.2
  · exact h.elim
  · exact h.elim
  · exact h

theorem outcomes_alike_iff {α : Type} {P : σ₁ → σ₂ → Prop} {a b : Except Fault α} {s₁ : σ₁}
    {s₂ : σ₂} : Outcomes P (Alike P) a b s₁ s₂ ↔ Alike P a b s₁ s₂ := by
  constructor
  · intro h
    rcases a with e | a <;> rcases b with e' | b
    · exact ⟨congrArg Except.error h.1, h.2⟩
    · exact h.elim
    · exact h.elim
    · exact ⟨congrArg Except.ok h.1, h.2⟩
  · rintro ⟨rfl, hs⟩
    cases a with
    | error e => exact ⟨rfl, hs⟩
    | ok a => exact ⟨rfl, hs⟩

theorem Outcomes.alike_unit {P : σ₁ → σ₂ → Prop} {a b : Except Fault Unit} {s₁ : σ₁} {s₂ : σ₂}
    (h : Outcomes P (fun _ _ => P) a b s₁ s₂) : Alike P a b s₁ s₂ := by
  rcases a with e | ⟨⟩ <;> rcases b with e' | ⟨⟩
  · exact ⟨congrArg Except.error h.1, h.2⟩
  · exact h.elim
  · exact h.elim
  · exact ⟨rfl, h⟩

namespace Related

variable {P P' : σ₁ → σ₂ → Prop} {Q : α₁ → α₂ → σ₁ → σ₂ → Prop} {R : β₁ → β₂ → σ₁ → σ₂ → Prop}

theorem pure {a : α₁} {b : α₂} (h : ∀ s₁ s₂, P s₁ s₂ → Q a b s₁ s₂) :
    Related P (pure a) (pure b) Q := by
  intro s₁ s₂ hs
  exact h s₁ s₂ hs

theorem pure_alike {α : Type} (a : α) : Related P (Pure.pure a) (Pure.pure a) (Alike P) :=
  .pure fun _ _ hs => ⟨rfl, hs⟩

theorem bind {x : StateM σ₁ α₁} {y : StateM σ₂ α₂} {f : α₁ → StateM σ₁ β₁}
    {g : α₂ → StateM σ₂ β₂} (hx : Related P x y Q)
    (hf : ∀ a b, Related (Q a b) (f a) (g b) R) : Related P (x >>= f) (y >>= g) R := by
  intro s₁ s₂ hs
  have h := hx s₁ s₂ hs
  exact hf _ _ _ _ h

theorem bind_alike {α : Type} {x : StateM σ₁ α} {y : StateM σ₂ α} {f : α → StateM σ₁ β₁}
    {g : α → StateM σ₂ β₂} (hx : Related P x y (Alike P')) (hf : ∀ a, Related P' (f a) (g a) R) :
    Related P (x >>= f) (y >>= g) R := by
  refine hx.bind fun a b => ?_
  rintro s₁ s₂ ⟨rfl, hs⟩
  exact hf a s₁ s₂ hs

theorem after {f : σ₁ → σ₁} {x : StateM σ₁ α₁} {y : StateM σ₂ α₂} (h : Related P x y Q)
    (hf : ∀ s₁ s₂, P s₁ s₂ → P (f s₁) s₂) : Related P (do modify f; x) y Q := by
  intro s₁ s₂ hs
  exact h _ _ (hf s₁ s₂ hs)

theorem mono {Q' : α₁ → α₂ → σ₁ → σ₂ → Prop} {x : StateM σ₁ α₁} {y : StateM σ₂ α₂}
    (h : Related P x y Q) (hQ : ∀ a b s₁ s₂, Q a b s₁ s₂ → Q' a b s₁ s₂) : Related P x y Q' := by
  intro s₁ s₂ hs
  exact hQ _ _ _ _ (h s₁ s₂ hs)

theorem ite {b : Bool} {x x' : StateM σ₁ α₁} {y y' : StateM σ₂ α₂} (h : Related P x y Q)
    (h' : Related P x' y' Q) : Related P (if b then x else x') (if b then y else y') Q := by
  cases b
  · exact h'
  · exact h

/-- What is known of the answers so far need not be said of the states. -/
theorem given {p : Prop} {x : StateM σ₁ α₁} {y : StateM σ₂ α₂} (h : p → Related P x y Q) :
    Related (fun s₁ s₂ => p ∧ P s₁ s₂) x y Q := by
  intro s₁ s₂ ⟨hp, hs⟩
  exact h hp s₁ s₂ hs

theorem mapM {α β : Type} {f : α → StateM σ₁ β} {g : α → StateM σ₂ β}
    (h : ∀ a, Related P (f a) (g a) (Alike P)) (xs : List α) :
    Related P (xs.mapM f) (xs.mapM g) (Alike P) := by
  induction xs with
  | nil => exact .pure_alike _
  | cons x xs ih =>
    rw [List.mapM_cons, List.mapM_cons]
    exact (h x).bind_alike fun _ => ih.bind_alike fun _ => .pure_alike _

/-! Actions stop at the first fault, so what follows need be related after good outcomes only. -/

theorem action_bind {x : Action σ₁ α₁} {y : Action σ₂ α₂} {f : α₁ → Action σ₁ β₁}
    {g : α₂ → Action σ₂ β₂} (hx : Related P x.run y.run (Outcomes P' Q))
    (hf : ∀ a b, Related (Q a b) (f a).run (g b).run (Outcomes P' R)) :
    Related P (x >>= f).run (y >>= g).run (Outcomes P' R) := by
  rw [ExceptT.run_bind, ExceptT.run_bind]
  refine hx.bind fun a b => ?_
  rcases a with e | a <;> rcases b with e' | b
  · exact .pure fun _ _ hs => hs
  · exact fun _ _ hs => hs.elim
  · exact fun _ _ hs => hs.elim
  · exact hf a b

theorem action_bind_alike {α : Type} {x : Action σ₁ α} {y : Action σ₂ α} {f : α → Action σ₁ β₁}
    {g : α → Action σ₂ β₂} (hx : Related P x.run y.run (Outcomes P' (Alike P')))
    (hf : ∀ a, Related P' (f a).run (g a).run (Outcomes P' R)) :
    Related P (x >>= f).run (y >>= g).run (Outcomes P' R) := by
  refine hx.action_bind fun a b => ?_
  rintro s₁ s₂ ⟨rfl, hs⟩
  exact hf a s₁ s₂ hs

theorem action_lift {x : StateM σ₁ α₁} {y : StateM σ₂ α₂} (h : Related P x y Q) :
    Related P (liftM x : Action σ₁ α₁).run (liftM y : Action σ₂ α₂).run (Outcomes P' Q) :=
  h

theorem action_pure {a : α₁} {b : α₂} (h : ∀ s₁ s₂, P s₁ s₂ → Q a b s₁ s₂) :
    Related P (Pure.pure a : Action σ₁ α₁).run (Pure.pure b : Action σ₂ α₂).run (Outcomes P' Q) :=
  h

theorem action_except {α : Type} (x : Except Fault α) :
    Related P (liftM x : Action σ₁ α).run (liftM x : Action σ₂ α).run (Outcomes P (Alike P)) := by
  intro s₁ s₂ hs
  cases x
  · exact ⟨rfl, hs⟩
  · exact ⟨rfl, hs⟩

theorem action_answer {α β : Type} {x : Action σ₁ α} {y : Action σ₂ α} (f : α → β)
    (h : Related P x.run y.run (Outcomes P' (Alike P'))) :
    Related P (do return f (← x)).run (do return f (← y)).run (Outcomes P' (Alike P')) :=
  h.action_bind_alike fun _ => .action_pure fun _ _ hs => ⟨rfl, hs⟩

theorem action_done {β : Type} {x : Action σ₁ α₁} {y : Action σ₂ α₂} (b : β)
    (h : Related P x.run y.run (Outcomes P' fun _ _ => P')) :
    Related P (do let _ ← x; return b).run (do let _ ← y; return b).run (Outcomes P' (Alike P')) :=
  h.action_bind fun _ _ => .action_pure fun _ _ hs => ⟨rfl, hs⟩

end Related

/-! ## Views -/

section views

variable {P : σ₁ → σ₂ → Prop} {read₁ : String → StateM σ₁ (Option Float)}
  {read₂ : String → StateM σ₂ (Option Float)}

mutual

theorem asNumber_related (h : ∀ name, Related P (read₁ name) (read₂ name) (Alike P)) :
    ∀ e : Expr, Related P (e.asNumber read₁) (e.asNumber read₂) (Alike P)
  | .number _ => .pure_alike _
  | .variable name => (h name).bind_alike fun _ => .pure_alike _
  | .conditional c yes no => by
    rw [Expr.asNumber, Expr.asNumber]
    exact (asTruth_related h c).bind_alike fun _ =>
      .ite (asNumber_related h yes) (asNumber_related h no)
  | .unary .neg e => (asNumber_related h e).bind_alike fun _ => .pure_alike _
  | .unary .not e => (asTruth_related h e).bind_alike fun _ => .pure_alike _
  | .binary (.arithmetic _) l r =>
    (asNumber_related h l).bind_alike fun _ =>
      (asNumber_related h r).bind_alike fun _ => .pure_alike _
  | .binary (.comparison _) l r =>
    (asNumber_related h l).bind_alike fun _ =>
      (asNumber_related h r).bind_alike fun _ => .pure_alike _
  | .binary (.logical .or) l r => by
    rw [Expr.asNumber, Expr.asNumber]
    exact (asTruth_related h l).bind_alike fun _ => .ite (.pure_alike _)
      ((asTruth_related h r).bind_alike fun _ => .pure_alike _)
  | .binary (.logical .and) l r => by
    rw [Expr.asNumber, Expr.asNumber]
    exact (asTruth_related h l).bind_alike fun _ =>
      .ite ((asTruth_related h r).bind_alike fun _ => .pure_alike _)
        (.pure_alike _)
  | .tween _ | .setActive _ | .callback => .pure_alike _

theorem asTruth_related (h : ∀ name, Related P (read₁ name) (read₂ name) (Alike P)) :
    ∀ e : Expr, Related P (e.asTruth read₁) (e.asTruth read₂) (Alike P)
  | .number _ => .pure_alike _
  | .variable name => (h name).bind_alike fun _ => .pure_alike _
  | .conditional c yes no => by
    rw [Expr.asTruth, Expr.asTruth]
    exact (asTruth_related h c).bind_alike fun _ =>
      .ite ((asNumber_related h yes).bind_alike fun _ => .pure_alike _)
        ((asNumber_related h no).bind_alike fun _ => .pure_alike _)
  | .unary .neg e => (asNumber_related h e).bind_alike fun _ => .pure_alike _
  | .unary .not e => (asTruth_related h e).bind_alike fun _ => .pure_alike _
  | .binary (.arithmetic _) l r =>
    (asNumber_related h l).bind_alike fun _ =>
      (asNumber_related h r).bind_alike fun _ => .pure_alike _
  | .binary (.comparison _) l r =>
    (asNumber_related h l).bind_alike fun _ =>
      (asNumber_related h r).bind_alike fun _ => .pure_alike _
  | .binary (.logical .or) l r => by
    rw [Expr.asTruth, Expr.asTruth]
    exact (asTruth_related h l).bind_alike fun _ =>
      .ite (.pure_alike _) (asTruth_related h r)
  | .binary (.logical .and) l r => by
    rw [Expr.asTruth, Expr.asTruth]
    exact (asTruth_related h l).bind_alike fun _ =>
      .ite (asTruth_related h r) (.pure_alike _)
  | .tween _ | .setActive _ | .callback => .pure_alike _

end

end views

/-! ## Contexts -/

/-- A setting that registers nothing. -/
def Setting.IsPlain : Setting → Prop
  | .andThen _ => False
  | _ => True

variable {ο₁ ο₂ τ₁ τ₂ : Type}

/-- The operations of two contexts keep `S`; `O` relates the objects they find and `T` the tweens
they make, for as long as these are being told their settings. -/
structure Simulates (c₁ : Context σ₁ ο₁ τ₁) (c₂ : Context σ₂ ο₂ τ₂) (S : σ₁ → σ₂ → Prop)
    (O : ο₁ → ο₂ → Prop) (T : τ₁ → τ₂ → σ₁ → σ₂ → Prop) : Prop where
  resolve : ∀ name, Related S (c₁.resolveObject name).run (c₂.resolveObject name).run
    (Outcomes S fun o₁ o₂ s₁ s₂ => O o₁ o₂ ∧ S s₁ s₂)
  read : ∀ name, Related S (c₁.readVariable name) (c₂.readVariable name) (Alike S)
  readFor : ∀ t₁ t₂ name,
    Related (T t₁ t₂) (c₁.readVariable name) (c₂.readVariable name) (Alike (T t₁ t₂))
  setActive : ∀ o₁ o₂ active, O o₁ o₂ →
    Related S (c₁.host.setActive o₁ active) (c₂.host.setActive o₂ active) fun _ _ => S
  callback : Related S c₁.host.callback c₂.host.callback fun _ _ => S
  create : ∀ o₁ o₂ channel duration target, O o₁ o₂ →
    Related S (c₁.host.createTween o₁ channel duration target).run
      (c₂.host.createTween o₂ channel duration target).run (Outcomes S T)
  configure : ∀ t₁ t₂ s, s.IsPlain →
    Related (T t₁ t₂) (c₁.host.configure t₁ s) (c₂.host.configure t₂ s) fun _ _ => T t₁ t₂
  register : ∀ t₁ t₂ body, Related (T t₁ t₂) (c₁.host.configure t₁ (.andThen ⟨body, c₁.scope⟩))
    (c₂.host.configure t₂ (.andThen ⟨body, c₂.scope⟩)) fun _ _ => T t₁ t₂
  release : ∀ t₁ t₂ s₁ s₂, T t₁ t₂ s₁ s₂ → S s₁ s₂

namespace Simulates

variable {c₁ : Context σ₁ ο₁ τ₁} {c₂ : Context σ₂ ο₂ τ₂} {S P : σ₁ → σ₂ → Prop}
  {O : ο₁ → ο₂ → Prop} {T : τ₁ → τ₂ → σ₁ → σ₂ → Prop}

theorem values (h : ∀ name, Related P (c₁.readVariable name) (c₂.readVariable name) (Alike P))
    (w : Nat) (vs : Values) : Related P (c₁.values w vs) (c₂.values w vs) (Alike P) := by
  cases vs with
  | same e => exact (asNumber_related h e).bind_alike fun _ => .pure_alike _
  | each es => exact .mapM (asNumber_related h) es

theorem target (h : ∀ name, Related P (c₁.readVariable name) (c₂.readVariable name) (Alike P))
    (w : Nat) (o : Option Values) : Related P (c₁.target w o) (c₂.target w o) (Alike P) := by
  cases o with
  | none => exact .pure_alike _
  | some vs => exact (values h w vs).bind_alike fun _ => .pure_alike _

theorem tell (h : Simulates c₁ c₂ S O T) {t₁ : τ₁} {t₂ : τ₂} {α : Type} {x : StateM σ₁ α}
    {y : StateM σ₂ α} (hx : Related (T t₁ t₂) x y (Alike (T t₁ t₂))) (f : α → Setting)
    (hf : ∀ a, (f a).IsPlain) :
    Related (T t₁ t₂) (do c₁.host.configure t₁ (f (← x))) (do c₂.host.configure t₂ (f (← y)))
      fun _ _ => T t₁ t₂ :=
  hx.bind_alike fun a => h.configure t₁ t₂ (f a) (hf a)

theorem step (h : Simulates c₁ c₂ S O T) (t₁ : τ₁) (t₂ : τ₂) (w : Nat) (step : Step) :
    Related (T t₁ t₂) (do c₁.host.configure t₁ (← c₁.setting w step))
      (do c₂.host.configure t₂ (← c₂.setting w step)) fun _ _ => T t₁ t₂ := by
  have reads := h.readFor t₁ t₂
  cases step with
  | start relative vs => exact h.tell (values reads w vs) (.start relative) fun _ => trivial
  | delay e => exact h.tell (asNumber_related reads e) .delay fun _ => trivial
  | animate e => exact h.tell (asTruth_related reads e) .animate fun _ => trivial
  | ease e => exact h.configure t₁ t₂ (.ease e) trivial
  | andThen body => exact h.register t₁ t₂ body

theorem configureAll (h : Simulates c₁ c₂ S O T) (t₁ : τ₁) (t₂ : τ₂) (w : Nat)
    (steps : List Step) :
    Related (T t₁ t₂) (c₁.configure w t₁ steps) (c₂.configure w t₂ steps) fun _ _ => T t₁ t₂ := by
  induction steps with
  | nil => exact .pure fun _ _ hs => hs
  | cons step steps ih =>
    have first := h.step t₁ t₂ w step
    exact first.bind fun _ _ => ih

theorem make (h : Simulates c₁ c₂ S O T) (p : Plan) :
    Related S (c₁.make p).run (c₂.make p).run (Outcomes S T) := by
  rw [Context.make, Context.make]
  refine (h.resolve p.object).action_bind fun o₁ o₂ => .given fun ho => ?_
  refine (asNumber_related h.read p.duration).action_lift.action_bind_alike fun duration => ?_
  refine (target h.read _ p.target).action_lift.action_bind_alike fun target => ?_
  refine (h.create o₁ o₂ p.channel duration target ho).action_bind fun t₁ t₂ => ?_
  refine (h.configureAll t₁ t₂ _ p.steps).action_lift.action_bind fun _ _ => ?_
  exact .action_pure fun _ _ hs => hs

theorem chain (h : Simulates c₁ c₂ S O T) (chain : Chain) :
    Related S (chain.evaluate c₁).run (chain.evaluate c₂).run (Outcomes S T) := by
  rw [Chain.evaluate, Chain.evaluate]
  cases chain.plan with
  | error f => exact fun s₁ s₂ hs => ⟨rfl, hs⟩
  | ok p => exact h.make p

theorem evaluateSetActive (h : Simulates c₁ c₂ S O T) (args : List Expr) :
    Related S (evaluateSetActive c₁ args).run (evaluateSetActive c₂ args).run
      (Outcomes S fun _ _ => S) := by
  unfold TweenScript.evaluateSetActive
  split
  · rename_i object flag
    refine (Related.action_except (objectName "Active" object)).action_bind_alike fun name => ?_
    refine (h.resolve name).action_bind fun o₁ o₂ => .given fun ho => ?_
    refine (asTruth_related h.read flag).action_lift.action_bind_alike fun active => ?_
    exact (h.setActive o₁ o₂ active ho).action_lift
  · exact fun s₁ s₂ hs => ⟨rfl, hs⟩

theorem expr (h : Simulates c₁ c₂ S O T) (e : Expr) :
    Related S (e.evaluate c₁).run (e.evaluate c₂).run (Outcomes S fun _ _ => S) := by
  unfold Expr.evaluate
  split
  · exact (h.chain _).action_bind fun t₁ t₂ => .action_pure (h.release t₁ t₂)
  · exact h.evaluateSetActive _
  · exact h.callback.action_lift
  · exact (asNumber_related h.read e).action_lift.action_bind fun _ _ =>
      .action_pure fun _ _ hs => hs.2

mutual

/-- Evaluation of a statement keeps the relation. -/
theorem statement (h : Simulates c₁ c₂ S O T) : ∀ s : Statement,
    Related S (s.evaluate c₁).run (s.evaluate c₂).run (Outcomes S fun _ _ => S)
  | .block body => h.statements body
  | .when condition body => by
    rw [Statement.evaluate, Statement.evaluate]
    refine (asTruth_related h.read condition).action_lift.action_bind_alike fun holds => ?_
    cases holds with
    | true => exact h.statement body
    | false => exact .action_pure fun _ _ hs => hs
  | .expr e => h.expr e

theorem statements (h : Simulates c₁ c₂ S O T) : ∀ body : List Statement,
    Related S (evaluateAll c₁ body).run (evaluateAll c₂ body).run (Outcomes S fun _ _ => S)
  | [] => .action_pure fun _ _ hs => hs
  | s :: body => (h.statement s).action_bind fun _ _ => h.statements body

end

end Simulates

/-! ## Invariants -/

section invariants

variable {σ ο τ : Type}

/-- The operations of a context keep `I`, and `J` while a tween is being told its settings. -/
structure Maintains (c : Context σ ο τ) (I : σ → Prop) (J : τ → σ → Prop) : Prop where
  resolve : ∀ name s, I s → I ((c.resolveObject name).run.run s).2
  read : ∀ name s, I s → I ((c.readVariable name).run s).2
  readFor : ∀ t name s, J t s → J t ((c.readVariable name).run s).2
  setActive : ∀ o active s, I s → I ((c.host.setActive o active).run s).2
  callback : ∀ s, I s → I (c.host.callback.run s).2
  create : ∀ o channel duration target s, I s →
    match (c.host.createTween o channel duration target).run.run s with
    | (.ok t, s') => J t s'
    | (.error _, s') => I s'
  configure : ∀ t setting s, setting.IsPlain → J t s → J t ((c.host.configure t setting).run s).2
  register : ∀ t body s, J t s → J t ((c.host.configure t (.andThen ⟨body, c.scope⟩)).run s).2
  release : ∀ t s, J t s → I s

namespace Maintains

variable {c : Context σ ο τ} {I : σ → Prop} {J : τ → σ → Prop}

/-- A context whose operations keep an invariant simulates itself where the invariant holds. -/
theorem simulates (h : Maintains c I J) :
    Simulates c c (fun s₁ s₂ => s₁ = s₂ ∧ I s₁) (· = ·)
      (fun t₁ t₂ s₁ s₂ => t₁ = t₂ ∧ s₁ = s₂ ∧ J t₁ s₁) where
  resolve name := by
    rintro s _ ⟨rfl, hs⟩
    have kept := h.resolve name s hs
    show Outcomes _ _ ((c.resolveObject name).run.run s).1 _ _ _
    cases ((c.resolveObject name).run.run s).1 with
    | ok o => exact ⟨rfl, rfl, kept⟩
    | error f => exact ⟨rfl, rfl, kept⟩
  read name := by
    rintro s _ ⟨rfl, hs⟩
    exact ⟨rfl, rfl, h.read name s hs⟩
  readFor t _ name := by
    rintro s _ ⟨rfl, rfl, hs⟩
    exact ⟨rfl, rfl, rfl, h.readFor t name s hs⟩
  setActive o _ active := by
    rintro rfl s _ ⟨rfl, hs⟩
    exact ⟨rfl, h.setActive o active s hs⟩
  callback := by
    rintro s _ ⟨rfl, hs⟩
    exact ⟨rfl, h.callback s hs⟩
  create o _ channel duration target := by
    rintro rfl s _ ⟨rfl, hs⟩
    have kept := h.create o channel duration target s hs
    cases made : (c.host.createTween o channel duration target).run.run s with
    | mk outcome s' =>
      rw [made] at kept
      cases outcome with
      | ok t => exact ⟨rfl, rfl, kept⟩
      | error f => exact ⟨rfl, rfl, kept⟩
  configure t _ setting plain := by
    rintro s _ ⟨rfl, rfl, hs⟩
    exact ⟨rfl, rfl, h.configure t setting s plain hs⟩
  register t _ body := by
    rintro s _ ⟨rfl, rfl, hs⟩
    exact ⟨rfl, rfl, h.register t body s hs⟩
  release t _ s _ := by
    rintro ⟨rfl, rfl, hs⟩
    exact ⟨rfl, h.release t s hs⟩

theorem number (h : Maintains c I J) (e : Expr) {s : σ} (hs : I s) : I ((c.number e).run s).2 :=
  (asNumber_related h.simulates.read e s s ⟨rfl, hs⟩).2.2

theorem truth (h : Maintains c I J) (e : Expr) {s : σ} (hs : I s) : I ((c.truth e).run s).2 :=
  (asTruth_related h.simulates.read e s s ⟨rfl, hs⟩).2.2

theorem chain (h : Maintains c I J) (chain : Chain) {s : σ} (hs : I s) :
    I ((chain.evaluate c).run.run s).2 := by
  have related := h.simulates.chain chain s s ⟨rfl, hs⟩
  cases made : (chain.evaluate c).run.run s with
  | mk outcome s' =>
    rw [made] at related
    cases outcome with
    | ok t => exact h.release t s' related.2.2
    | error f => exact related.2.2

theorem statement (h : Maintains c I J) (body : Statement) {s : σ} (hs : I s) :
    I ((body.evaluate c).run.run s).2 :=
  (h.simulates.statement body s s ⟨rfl, hs⟩).state.2

end Maintains

end invariants

end TweenScript
