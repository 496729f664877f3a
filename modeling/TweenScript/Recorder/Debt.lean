import TweenScript.Recorder

/-!
# The debt of a recorder

The debt counts the tweens that are not complete and the tweens that waiting continuations can still
make. Evaluating a statement raises it by no more than the chains in the statement
(`grows_evaluate`), so completing a tween lowers it: this is why completing everything ends.
-/

namespace TweenScript

/-! ## Chains in statements -/

mutual

/-- How many chains a statement holds that it can come to evaluate, now or later. -/
def Statement.chains : Statement → Nat
  | .block body => chainsOfAll body
  | .when _ body => body.chains
  | .expr e => e.chains

/-- The same of several statements. -/
def chainsOfAll : List Statement → Nat
  | [] => 0
  | s :: body => s.chains + chainsOfAll body

/-- The same of an expression evaluated as a statement. -/
def Expr.chains : Expr → Nat
  | .tween chain => chain.chains
  | _ => 0

/-- The same of a chain, itself included. -/
def Chain.chains : Chain → Nat
  | ⟨_, _, _, links⟩ => 1 + chainsOfLinks links

/-- The same of links. -/
def chainsOfLinks : List Link → Nat
  | [] => 0
  | link :: links => link.chains + chainsOfLinks links

/-- The same of a link. -/
def Link.chains : Link → Nat
  | .andThen body => body.chains
  | _ => 0

end

/-- The same of a step. -/
def Step.chains : Step → Nat
  | .andThen body => body.chains
  | _ => 0

/-! ## The debt -/

namespace Recorder

/-- How many tweens are not complete. -/
def unfinished (r : Recorder) : Nat :=
  r.tweens.countP fun t => !t.completed

/-- How many tweens waiting continuations can still make. -/
def waiting (r : Recorder) : Nat :=
  (r.pending.map fun p => p.2.body.chains).foldr (· + ·) 0

/-- How many tweens are not complete or can still be made by waiting continuations. -/
def debt (r : Recorder) : Nat :=
  r.unfinished + r.waiting

@[simp] theorem debt_noteRead (r : Recorder) (name : String) : (r.noteRead name).debt = r.debt := rfl

@[simp] theorem debt_switch (r : Recorder) (object : String) (active : Bool) :
    (r.switch object active).debt = r.debt := rfl

@[simp] theorem debt_call (r : Recorder) : r.call.debt = r.debt := rfl

theorem debt_create (r : Recorder) (object : String) (channel : Channel) (duration : Float)
    (target : Option (List Float)) :
    (r.create object channel duration target).debt = r.debt + 1 := by
  simp [debt, unfinished, waiting, create]
  omega

theorem countP_modify_of_eq {α : Type} (p : α → Bool) (f : α → α) (h : ∀ a, p (f a) = p a)
    (xs : Array α) (i : Nat) : (xs.modify i f).countP p = xs.countP p := by
  rw [← Array.countP_toList, ← Array.countP_toList, Array.toList_modify]
  generalize xs.toList = l
  induction l generalizing i with
  | nil => simp
  | cons a l ih =>
    cases i with
    | zero => simp [List.countP_cons, h]
    | succ i => simp [List.countP_cons, ih]

theorem unfinished_change (r : Recorder) (id : Nat) (f : TweenRecord → TweenRecord)
    (h : ∀ t, (f t).completed = t.completed) : (r.change id f).unfinished = r.unfinished :=
  countP_modify_of_eq _ f (fun t => by rw [h]) _ _

/-- What a setting can still make. -/
def chainsOfSetting : Setting → Nat
  | .andThen k => k.body.chains
  | _ => 0

theorem debt_configure (r : Recorder) (id : Nat) (s : Setting) :
    (r.configure id s).debt = r.debt + chainsOfSetting s := by
  have keep (f : TweenRecord → TweenRecord) (h : ∀ t, (f t).completed = t.completed) :
      (r.change id f).debt = r.debt := by
    rw [debt, unfinished_change r id f h]; rfl
  cases s with
  | andThen k =>
    have kept : (r.configure id (.andThen k)).unfinished = r.unfinished :=
      unfinished_change r id _ fun _ => rfl
    have more : (r.configure id (.andThen k)).waiting = r.waiting + k.body.chains := by
      simp only [configure, change, waiting, ← List.sum_eq_foldr, List.map_append, List.sum_append,
        List.map_cons, List.map_nil, List.sum_singleton]
    rw [debt, kept, more, debt, chainsOfSetting, Nat.add_assoc]
  | _ => exact keep _ fun _ => rfl

end Recorder

/-! ## Growth -/

/-- Running `x` raises the debt by at most `n`. -/
def Grows {α : Type} (n : Nat) (x : StateM Recorder α) : Prop :=
  ∀ r, (x.run r).2.debt ≤ r.debt + n

namespace Grows

variable {α β : Type}

theorem pure (a : α) : Grows 0 (pure a : StateM Recorder α) :=
  fun _ => Nat.le_refl _

theorem bind {m n : Nat} {x : StateM Recorder α} {f : α → StateM Recorder β} (hx : Grows m x)
    (hf : ∀ a, Grows n (f a)) : Grows (m + n) (x >>= f) := by
  intro r
  have h₁ := hx r
  have h₂ := hf (x.run r).1 (x.run r).2
  simp only [StateT.run_bind]
  exact Nat.le_trans h₂ (by omega)

theorem mono {m n : Nat} {x : StateM Recorder α} (hx : Grows m x) (h : m ≤ n) : Grows n x :=
  fun r => Nat.le_trans (hx r) (by omega)

theorem ite {n : Nat} {b : Bool} {x y : StateM Recorder α} (hx : Grows n x) (hy : Grows n y) :
    Grows n (if b then x else y) := by
  split
  · exact hx
  · exact hy

theorem map {n : Nat} {x : StateM Recorder α} (hx : Grows n x) (f : α → β) : Grows n (f <$> x) :=
  fun r => hx r

theorem action_bind {m n : Nat} {x : Action Recorder α} {f : α → Action Recorder β}
    (hx : Grows m x.run) (hf : ∀ a, Grows n (f a).run) : Grows (m + n) (x >>= f).run := by
  rw [ExceptT.run_bind]
  refine hx.bind fun o => ?_
  cases o with
  | ok a => exact hf a
  | error e => exact (pure _).mono (Nat.zero_le _)

theorem action_lift {n : Nat} {x : StateM Recorder α} (hx : Grows n x) :
    Grows n (liftM x : Action Recorder α).run :=
  hx.map Except.ok

theorem action_pure (a : α) : Grows 0 (Pure.pure a : Action Recorder α).run :=
  pure _

theorem action_except (x : Except Fault α) : Grows 0 (liftM x : Action Recorder α).run :=
  fun _ => Nat.le_refl _

theorem action_discard {n : Nat} {x : Action Recorder α} (hx : Grows n x.run) :
    Grows n (discard x).run :=
  (hx.action_bind fun _ => action_pure _).mono (Nat.le_refl _)

end Grows

/-! ## Evaluation -/

section evaluation

variable (scope : Scope)

theorem grows_readVariable (name : String) :
    Grows 0 ((Recorder.context scope).readVariable name) :=
  fun _ => Nat.le_refl _

mutual

theorem grows_asNumber : ∀ e : Expr, Grows 0 ((Recorder.context scope).number e)
  | .number v => .pure _
  | .variable name => (grows_readVariable scope name).bind fun _ => .pure _
  | .conditional c yes no => by
    rw [Context.number, Expr.asNumber]
    exact (grows_asTruth c).bind fun _ => .ite (grows_asNumber yes) (grows_asNumber no)
  | .unary .neg e => (grows_asNumber e).bind fun _ => .pure _
  | .unary .not e => (grows_asTruth e).bind fun _ => .pure _
  | .binary (.arithmetic op) l r =>
    (grows_asNumber l).bind fun _ => (grows_asNumber r).bind fun _ => .pure _
  | .binary (.comparison op) l r =>
    (grows_asNumber l).bind fun _ => (grows_asNumber r).bind fun _ => .pure _
  | .binary (.logical .or) l r => by
    rw [Context.number, Expr.asNumber]
    exact (grows_asTruth l).bind fun _ => .ite (.pure _) ((grows_asTruth r).bind fun _ => .pure _)
  | .binary (.logical .and) l r => by
    rw [Context.number, Expr.asNumber]
    exact (grows_asTruth l).bind fun _ => .ite ((grows_asTruth r).bind fun _ => .pure _) (.pure _)
  | .tween _ | .setActive _ | .callback => .pure _

theorem grows_asTruth : ∀ e : Expr, Grows 0 ((Recorder.context scope).truth e)
  | .number v => .pure _
  | .variable name => (grows_readVariable scope name).bind fun _ => .pure _
  | .conditional c yes no => by
    rw [Context.truth, Expr.asTruth]
    exact (grows_asTruth c).bind fun _ =>
      .ite ((grows_asNumber yes).bind fun _ => .pure _) ((grows_asNumber no).bind fun _ => .pure _)
  | .unary .neg e => (grows_asNumber e).bind fun _ => .pure _
  | .unary .not e => (grows_asTruth e).bind fun _ => .pure _
  | .binary (.arithmetic op) l r =>
    (grows_asNumber l).bind fun _ => (grows_asNumber r).bind fun _ => .pure _
  | .binary (.comparison op) l r =>
    (grows_asNumber l).bind fun _ => (grows_asNumber r).bind fun _ => .pure _
  | .binary (.logical .or) l r => by
    rw [Context.truth, Expr.asTruth]
    exact (grows_asTruth l).bind fun _ => .ite (.pure _) (grows_asTruth r)
  | .binary (.logical .and) l r => by
    rw [Context.truth, Expr.asTruth]
    exact (grows_asTruth l).bind fun _ => .ite (grows_asTruth r) (.pure _)
  | .tween _ | .setActive _ | .callback => .pure _

end

theorem grows_values (w : Nat) : ∀ vs : Values, Grows 0 ((Recorder.context scope).values w vs)
  | .same e => (grows_asNumber scope e).bind fun _ => .pure _
  | .each es => by
    rw [Context.values]
    induction es with
    | nil => exact .pure _
    | cons e es ih =>
      rw [List.mapM_cons]
      exact (grows_asNumber scope e).bind fun _ => ih.bind fun _ => .pure _

theorem grows_target (w : Nat) : ∀ o : Option Values, Grows 0 ((Recorder.context scope).target w o)
  | none => .pure _
  | some vs => (grows_values scope w vs).bind fun _ => .pure _

theorem grows_step (w id : Nat) (step : Step) :
    Grows step.chains (do
      (Recorder.context scope).host.configure id (← (Recorder.context scope).setting w step)) := by
  have told {x : StateM Recorder Setting} {n : Nat} (h : Grows 0 x)
      (hs : ∀ r, Recorder.chainsOfSetting (x.run r).1 ≤ n) :
      Grows n (do (Recorder.context scope).host.configure id (← x)) := by
    intro r
    have h₁ := h r
    have h₂ := hs r
    show ((x.run r).2.configure id (x.run r).1).debt ≤ _
    rw [Recorder.debt_configure]
    omega
  cases step with
  | start relative vs =>
    exact told ((grows_values scope w vs).bind fun _ => .pure _) fun _ => Nat.zero_le _
  | delay e => exact told ((grows_asNumber scope e).bind fun _ => .pure _) fun _ => Nat.zero_le _
  | animate e => exact told ((grows_asTruth scope e).bind fun _ => .pure _) fun _ => Nat.zero_le _
  | ease e => exact told (.pure _) fun _ => Nat.zero_le _
  | andThen body => exact told (.pure _) fun _ => Nat.le_refl _

theorem grows_configure (w id : Nat) (steps : List Step) :
    Grows ((steps.map Step.chains).foldr (· + ·) 0) ((Recorder.context scope).configure w id steps) := by
  induction steps with
  | nil => exact .pure _
  | cons step steps ih =>
    have h := (grows_step scope w id step).bind fun _ => ih
    rw [bind_assoc] at h
    exact h

theorem grows_resolveObject (name : String) :
    Grows 0 ((Recorder.context scope).resolveObject name).run :=
  Grows.action_bind (m := 0) (n := 0) (x := get) (fun _ => Nat.le_refl _) fun _ => .action_except _

theorem grows_make (p : Plan) :
    Grows (1 + (p.steps.map Step.chains).foldr (· + ·) 0) ((Recorder.context scope).make p).run := by
  have created (object : String) (duration : Float) (target : Option (List Float)) :
      Grows 1 ((Recorder.context scope).host.createTween object p.channel duration target).run :=
    fun r => Nat.le_of_eq (Recorder.debt_create r object p.channel duration target)
  refine ((grows_resolveObject scope p.object).action_bind fun object => ?_).mono (Nat.le_of_eq (Nat.zero_add _))
  refine ((grows_asNumber scope p.duration).action_lift.action_bind fun duration => ?_).mono
    (Nat.le_of_eq (Nat.zero_add _))
  refine ((grows_target scope p.channel.width p.target).action_lift.action_bind fun target => ?_).mono
    (Nat.le_of_eq (Nat.zero_add _))
  refine (created object duration target).action_bind fun t => ?_
  exact (grows_configure scope p.channel.width t p.steps).action_lift.action_bind fun _ =>
    .action_pure _

end evaluation

theorem chains_step {w : Nat} {link : Link} {step : Step} (h : link.step w = .ok step) :
    step.chains = link.chains := by
  cases link with
  | start relative args =>
    rw [Link.step] at h
    cases made : startValues w relative args <;> rw [made] at h <;> cases h
    rfl
  | delay args =>
    rw [Link.step] at h
    cases made : onlyArgument "Delay" args <;> rw [made] at h <;> cases h
    rfl
  | animate args =>
    rw [Link.step] at h
    cases made : onlyArgument "Animate" args <;> rw [made] at h <;> cases h
    rfl
  | ease e args =>
    rw [Link.step] at h
    cases made : noArguments e.name args <;> rw [made] at h <;> cases h
    rfl
  | andThen body =>
    cases h
    rfl

theorem chains_steps {w : Nat} {links : List Link} {steps : List Step}
    (h : links.mapM (Link.step w) = .ok steps) :
    (steps.map Step.chains).foldr (· + ·) 0 = chainsOfLinks links := by
  induction links generalizing steps with
  | nil => cases h; rfl
  | cons link links ih =>
    rw [List.mapM_cons] at h
    cases hs : link.step w with
    | error f => rw [hs] at h; cases h
    | ok step =>
      cases hr : links.mapM (Link.step w) with
      | error f => rw [hs, hr] at h; cases h
      | ok rest =>
        rw [hs, hr] at h
        cases h
        rw [List.map_cons, List.foldr_cons, chains_step hs, ih hr, chainsOfLinks]

theorem chains_plan {c : Chain} {p : Plan} (h : c.plan = .ok p) :
    1 + (p.steps.map Step.chains).foldr (· + ·) 0 = c.chains := by
  rw [Chain.plan] at h
  cases hc : c.check with
  | error f => rw [hc] at h; cases h
  | ok channel =>
    cases hp : c.planCall with
    | error f => rw [hc, hp] at h; cases h
    | ok call =>
      cases hm : c.links.mapM (Link.step channel.width) with
      | error f =>
        simp only [hc, hp, bind, Except.bind, hm] at h
        cases h
      | ok steps =>
        simp only [hc, hp, bind, Except.bind, hm] at h
        cases h
        obtain ⟨_, _, _, links⟩ := c
        rw [Chain.chains, chains_steps hm]

section evaluation

variable (scope : Scope)

theorem grows_chain (c : Chain) :
    Grows c.chains (c.evaluate (Recorder.context scope)).run := by
  cases hp : c.plan with
  | error f =>
    rw [Chain.evaluate, hp]
    exact fun r => Nat.le_add_right _ _
  | ok p =>
    rw [Chain.evaluate, hp, ← chains_plan hp]
    exact grows_make scope p

theorem grows_setActive (args : List Expr) :
    Grows 0 (evaluateSetActive (Recorder.context scope) args).run := by
  unfold evaluateSetActive
  split
  · rename_i object flag
    refine (Grows.action_except _).action_bind (n := 0) fun name => ?_
    refine (grows_resolveObject scope name).action_bind (n := 0) fun path => ?_
    refine (grows_asTruth scope flag).action_lift.action_bind (n := 0) fun active => ?_
    exact fun r => Nat.le_refl _
  · exact .pure _

theorem grows_expr (e : Expr) : Grows e.chains (e.evaluate (Recorder.context scope)).run := by
  unfold Expr.evaluate
  split
  · exact (grows_chain scope _).action_discard
  · exact grows_setActive scope _
  · exact fun r => Nat.le_refl _
  · exact (grows_asNumber scope e).action_lift.action_discard.mono (Nat.zero_le _)

mutual

/-- Evaluating a statement raises the debt by at most the chains in it. -/
theorem grows_evaluate : ∀ s : Statement, Grows s.chains (s.evaluate (Recorder.context scope)).run
  | .block body => grows_evaluateAll body
  | .when condition body => by
    refine ((grows_asTruth scope condition).action_lift.action_bind (n := body.chains)
      fun holds => ?_).mono (Nat.le_of_eq (Nat.zero_add _))
    cases holds
    · exact (Grows.action_pure _).mono (Nat.zero_le _)
    · exact grows_evaluate body
  | .expr e => grows_expr scope e

theorem grows_evaluateAll : ∀ body : List Statement,
    Grows (chainsOfAll body) (evaluateAll (Recorder.context scope) body).run
  | [] => .pure _
  | s :: body => (grows_evaluate s).action_bind fun _ => grows_evaluateAll body

end

end evaluation

end TweenScript
