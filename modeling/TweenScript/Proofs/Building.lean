import TweenScript.Proofs.Arity
import TweenScript.Proofs.Atomicity
import TweenScript.Proofs.Calls

/-!
# Building by position

A tween can be built from its chain as it stands: every argument is taken by its position, and as
many values are handed on as there are. Nothing is counted here, so an argument may be missing
(`Halt.outOfRange`) and values may be too few or too many for the channel. Behind `Chain.check` this
is how a chain is evaluated (`Context.evaluate_eq_check`), and then neither happens: whatever the
host, it is asked for one object and one tween, values come in the width of the channel, and only the
host can refuse (`Context.build_contract`).
-/

namespace TweenScript

/-! ## Arguments by position -/

/-- What ends the building of a tween before there is one. -/
inductive Halt where
  /-- An argument was looked for where there is none. -/
  | outOfRange
  | fault (f : Fault)

/-- What builds on a state of type `σ`. -/
abbrev Building (σ : Type) : Type → Type :=
  ExceptT Halt (StateM σ)

/-- An action as a part of building. -/
abbrev building {σ α : Type} (x : Action σ α) : Building σ α :=
  x.adapt Halt.fault

/-- The argument at a position. -/
def argument (args : List Expr) (i : Nat) : Except Halt Expr :=
  match args[i]? with
  | some e => .ok e
  | none => .error .outOfRange

/-- The arguments from a position on. -/
def argumentsFrom (args : List Expr) (i : Nat) : Except Halt (List Expr) :=
  if i ≤ args.length then .ok (args.drop i) else .error .outOfRange

/-- The object name that the first argument is. A missing one is no name. -/
def firstName (call : String) (args : List Expr) : Except Halt String :=
  match args[0]? with
  | some (Expr.variable name) => .ok name
  | _ => .error (.fault (.argument (.noObjectName call)))

namespace Context

variable {σ ο τ : Type}

/-- A single expression gives all values of a channel of width `w`, several give one each. -/
def valuesOf (c : Context σ ο τ) (w : Nat) : List Expr → StateM σ (List Float)
  | [e] => return List.replicate w (← c.number e)
  | es => es.mapM c.number

/-- The target values that the arguments of a call have behind the duration. -/
def targetOf (c : Context σ ο τ) (w : Nat) (args : List Expr) : Building σ (Option (List Float)) :=
  if args.length = 2 then return none
  else return some (← c.valuesOf w (← argumentsFrom args 2))

/-- Makes the tween of a call. -/
def buildCall (c : Context σ ο τ) (chain : Chain) : Building σ τ := do
  let object ← building (c.resolveObject (← firstName chain.name chain.args))
  let duration ← c.number (← argument chain.args 1)
  let target ← c.targetOf chain.channel.width chain.args
  building (c.host.createTween object chain.channel duration target)

/-- What a link tells a tween of a channel of width `w`. -/
def settingOf (c : Context σ ο τ) (w : Nat) : Link → Building σ Setting
  | .start relative args => return .start relative (← c.valuesOf w args)
  | .delay args => return .delay (← c.number (← argument args 0))
  | .animate args => return .animate (← c.truth (← argument args 0))
  | .ease e _ => return .ease e
  | .andThen body => return .andThen ⟨body, c.scope⟩

/-- Tells a tween what the links say. -/
def buildLinks (c : Context σ ο τ) (w : Nat) (t : τ) : List Link → Building σ Unit
  | [] => return ()
  | l :: links => do
    c.host.configure t (← c.settingOf w l)
    c.buildLinks w t links

/-- Builds the tween of a chain. -/
def build (c : Context σ ο τ) (chain : Chain) : Building σ τ := do
  let t ← c.buildCall chain
  c.buildLinks chain.channel.width t chain.links
  return t

/-- Switches an object on or off. The arguments are counted first. -/
def buildSetActive (c : Context σ ο τ) (args : List Expr) : Building σ Unit :=
  if args.length ≠ 2 then throw (.fault (.arity "Active" "2" args.length))
  else do
    let object ← building (c.resolveObject (← firstName "Active" args))
    let active ← c.truth (← argument args 1)
    c.host.setActive object active

end Context

/-! ## Actions as parts of building -/

section building

variable {σ α β : Type}

theorem building_run (x : Action σ α) (s : σ) :
    (building x).run.run s = ((x.run.run s).1.mapError .fault, (x.run.run s).2) :=
  rfl

theorem building_bind (x : Action σ α) (f : α → Action σ β) :
    building (x >>= f) = building x >>= fun a => building (f a) := by
  refine ExceptT.ext (StateT.ext fun s => ?_)
  have built := building_run x s
  rcases h : x.run.run s with ⟨fault | a, s'⟩
  · rw [h] at built
    rw [building_run, run_bind_error h, run_bind_error built]
    rfl
  · rw [h] at built
    rw [building_run, run_bind_ok h, run_bind_ok built, building_run]

theorem building_ne_outOfRange (x : Action σ α) (s : σ) :
    ((building x).run.run s).1 ≠ .error .outOfRange := by
  rw [building_run]
  cases (x.run.run s).1 <;> simp [Except.mapError]

end building

/-! ## Behind the checks -/

/-- What building by position relies on. -/
theorem fits_of_plan {chain : Chain} {p : Plan} (h : chain.plan = .ok p) :
    (∃ name duration values, chain.args = .variable name :: duration :: values) ∧
      chain.CallFits ∧ ∀ l ∈ chain.links, l.Fits chain.channel.width := by
  obtain ⟨call, steps, called, linked, -⟩ := plan_eq_ok_iff.mp h
  obtain ⟨name, duration, values, -, given, -, -⟩ := planCall_eq_ok_iff.mp called
  exact ⟨⟨name, duration, values, given⟩, (exists_planCall_iff.mp ⟨call, called⟩).1,
    (exists_steps_iff chain.channel).mp ⟨steps, linked⟩⟩

namespace Context

section plan

variable {σ ο τ : Type} (c : Context σ ο τ) {w : Nat} {args : List Expr}

theorem valuesOf_eq {vs : Values} (h : Values.ofList? w args = some vs) :
    c.valuesOf w args = c.values w vs := by
  match args with
  | [e] =>
    cases h
    rfl
  | [] | e :: e' :: args =>
    simp only [Values.ofList?] at h
    split at h
    · cases h
      rfl
    · cases h

theorem targetOf_eq (object duration : Expr) {target : Option Values}
    (h : targetOf? w args = some target) :
    c.targetOf w (object :: duration :: args) = liftM (c.target w target) := by
  cases args with
  | nil =>
    cases h
    rfl
  | cons e args =>
    obtain ⟨vs, made, rfl⟩ := Option.map_eq_some_iff.mp h
    have further : (object :: duration :: e :: args).length ≠ 2 := by simp
    have found : argumentsFrom (object :: duration :: e :: args) 2 = .ok (e :: args) := by
      simp [argumentsFrom]
    rw [targetOf, if_neg further, found]
    show (do return some (← c.valuesOf w (e :: args)) : Building σ (Option (List Float))) = _
    rw [c.valuesOf_eq made]
    rfl

theorem settingOf_eq {l : Link} {step : Step} (h : l.step w = .ok step) :
    c.settingOf w l = liftM (c.setting w step) := by
  cases l with
  | start relative args =>
    obtain ⟨vs, made, rfl⟩ := map_eq_ok_iff.mp h
    rw [settingOf, c.valuesOf_eq (startValues_eq_ok_iff.mp made)]
    rfl
  | delay args =>
    obtain ⟨e, only, rfl⟩ := map_eq_ok_iff.mp h
    cases onlyArgument_eq_ok_iff.mp only
    rfl
  | animate args =>
    obtain ⟨e, only, rfl⟩ := map_eq_ok_iff.mp h
    cases onlyArgument_eq_ok_iff.mp only
    rfl
  | ease e args =>
    obtain ⟨-, -, rfl⟩ := map_eq_ok_iff.mp h
    rfl
  | andThen body =>
    cases h
    rfl

theorem buildLinks_eq {links : List Link} {steps : List Step}
    (h : List.Forall₂ (fun l step => l.step w = .ok step) links steps) (t : τ) :
    c.buildLinks w t links = liftM (c.configure w t steps) := by
  -- each link with the step it makes
  induction h with
  | nil => rfl
  | cons made _ ih =>
    rw [buildLinks, c.settingOf_eq made, ih]
    rfl

theorem build_eq {chain : Chain} {p : Plan} (h : chain.plan = .ok p) :
    building (c.make p) = c.build chain := by
  obtain ⟨call, steps, called, linked, rfl⟩ := plan_eq_ok_iff.mp h
  obtain ⟨name, duration, values, target, given, counted, rfl⟩ := planCall_eq_ok_iff.mp called
  have aims := c.targetOf_eq (.variable name) duration counted
  have links := c.buildLinks_eq (mapM_eq_ok_iff.mp linked)
  simp only [make, building_bind, build, buildCall, firstName, argument, given, aims, links,
    bind_assoc]
  rfl

/-- A chain is evaluated by counting its arguments and then building by position. -/
theorem evaluate_eq_build (chain : Chain) :
    building (chain.evaluate c) =
      match chain.plan with
      | .ok _ => c.build chain
      | .error f => throw (.fault f) := by
  cases planned : chain.plan with
  | error f =>
    rw [Chain.evaluate, planned]
    rfl
  | ok p =>
    rw [Chain.evaluate, planned, building_bind, ← c.build_eq planned]
    rfl

theorem evaluate_eq_check (chain : Chain) :
    building (chain.evaluate c) =
      match chain.check with
      | .ok _ => c.build chain
      | .error f => throw (.fault f) := by
  rw [evaluate_eq_build, check_eq_channel_plan]
  cases chain.plan <;> rfl

theorem setActive_eq_build (args : List Expr) :
    building (evaluateSetActive c args) = c.buildSetActive args := by
  match args with
  | [] | [_] | _ :: _ :: _ :: _ => rfl
  | [object, flag] =>
    have counted : ¬ [object, flag].length ≠ 2 := by simp
    simp only [evaluateSetActive, building_bind]
    rw [buildSetActive, if_neg counted]
    cases object <;> rfl

end plan

end Context

/-! ## What a host is asked for -/

/-- Start values are as many as the channel has values. -/
def Setting.IsWide (w : Nat) : Setting → Prop
  | .start _ values => values.length = w
  | _ => True

/-- The call reads a variable or tells the tween `t` of a channel of width `w` something. -/
def Call.Tells {ο τ : Type} (w : Nat) (t : τ) : Call ο τ → Prop
  | .read _ => True
  | .configure t' setting => t' = t ∧ setting.IsWide w
  | _ => False

/-- What comes of building a tween on a host, with what the host was asked for and its state then:
it is asked for one object, for variables and for one tween, which is then told things. What goes
wrong is what the host refuses. -/
inductive Built {σ ο τ : Type} (h : Host σ ο τ) (channel : Channel) (s : σ) :
    Except Halt τ → List (Call ο τ) → σ → Prop where
  | missed {path : String} {f : Fault} {s' : σ}
    (resolved : (h.resolveObject path).run.run s = (.error f, s')) :
    Built h channel s (.error (.fault f)) [.resolve path] s'
  | refused (names : List String) {path : String} {object : ο} {duration : Float}
    {target : Option (List Float)} {f : Fault} {s₁ s₂ s' : σ}
    (resolved : (h.resolveObject path).run.run s = (.ok object, s₁))
    (wide : ∀ values ∈ target, values.length = channel.width)
    (created : (h.createTween object channel duration target).run.run s₂ = (.error f, s')) :
    Built h channel s (.error (.fault f))
      (.resolve path :: names.map .read ++ [.create object channel duration target]) s'
  | made (names : List String) {path : String} {object : ο} {duration : Float}
    {target : Option (List Float)} {t : τ} {later : List (Call ο τ)} {s₁ s₂ s₃ s' : σ}
    (resolved : (h.resolveObject path).run.run s = (.ok object, s₁))
    (wide : ∀ values ∈ target, values.length = channel.width)
    (created : (h.createTween object channel duration target).run.run s₂ = (.ok t, s₃))
    (told : ∀ call ∈ later, call.Tells channel.width t) :
    Built h channel s (.ok t)
      (.resolve path :: names.map .read ++ .create object channel duration target :: later) s'

section notes

variable {σ ο τ α β : Type}

/-- Building on a host that notes what it is asked for, and on the host itself, from the state `n`
to the state `n'`. -/
structure Notes (x : Building (Noted σ ο τ) α) (y : Building σ α) (n : Noted σ ο τ)
    (outcome : Except Halt α) (n' : Noted σ ο τ) : Prop where
  noting : x.run.run n = (outcome, n')
  plain : y.run.run n.2 = (outcome, n'.2)

namespace Notes

variable {x : Building (Noted σ ο τ) α} {y : Building σ α} {n n₁ n' : Noted σ ο τ}
  {f : α → Building (Noted σ ο τ) β} {g : α → Building σ β}

theorem bind {a : α} {outcome : Except Halt β} (hx : Notes x y n (.ok a) n₁)
    (hf : Notes (f a) (g a) n₁ outcome n') : Notes (x >>= f) (y >>= g) n outcome n' where
  noting := (run_bind_ok hx.noting).trans hf.noting
  plain := (run_bind_ok hx.plain).trans hf.plain

theorem stop {halt : Halt} (hx : Notes x y n (.error halt) n') :
    Notes (x >>= f) (y >>= g) n (.error halt) n' where
  noting := run_bind_error hx.noting
  plain := run_bind_error hx.plain

theorem pure (a : α) : Notes (Pure.pure a) (Pure.pure a) n (.ok a) n :=
  ⟨rfl, rfl⟩

theorem pure_nil (a : α) : Notes (Pure.pure a) (Pure.pure a) n (.ok a) (n.1 ++ [], n.2) := by
  rw [List.append_nil]
  exact .pure a

theorem action {z : Action σ α} {call : Call ο τ} {outcome : Except Fault α} {s' : σ}
    (h : z.run.run n.2 = (outcome, s')) :
    Notes (building (ExceptT.mk (call.note z.run))) (building z) n (outcome.mapError .fault)
      (n.1 ++ [call], s') where
  noting := by
    show ((z.run.run n.2).1.mapError Halt.fault, n.1 ++ [call], (z.run.run n.2).2) = _
    rw [h]
  plain := by rw [building_run, h]

theorem call (z : StateM σ α) (call : Call ο τ) (n : Noted σ ο τ) :
    Notes (liftM (call.note z)) (liftM z) n (.ok (z.run n.2).1) (n.1 ++ [call], (z.run n.2).2) :=
  ⟨rfl, rfl⟩

end Notes

theorem AsksOnlyReads.notes {x : StateM (Noted σ ο τ) α} {y : StateM σ α} (h : AsksOnlyReads x y)
    (n : Noted σ ο τ) :
    ∃ names : List String, Notes (liftM x) (liftM y) n (.ok (y.run n.2).1)
      (n.1 ++ names.map .read, (y.run n.2).2) := by
  obtain ⟨names, asked⟩ := h.exists_names n.1 n.2
  exact ⟨names, run_lift asked, rfl⟩

theorem AsksOnlyReads.notes_map {x : StateM (Noted σ ο τ) α} {y : StateM σ α}
    (h : AsksOnlyReads x y) (f : α → β) (n : Noted σ ο τ) :
    ∃ names : List String, Notes (do return f (← liftM x)) (do return f (← liftM y)) n
      (.ok (f (y.run n.2).1)) (n.1 ++ names.map .read, (y.run n.2).2) := by
  obtain ⟨names, asked⟩ := h.notes n
  exact ⟨names, asked.bind (.pure _)⟩

end notes

namespace Context

section contract

variable {σ ο τ : Type} (c : Context σ ο τ) {w : Nat} {args : List Expr}

theorem asksOnlyReads_valuesOf (w : Nat) (args : List Expr) :
    AsksOnlyReads (c.noting.valuesOf w args) (c.valuesOf w args) := by
  match args with
  | [e] => exact (c.asksOnlyReads_number e).map _
  | [] | _ :: _ :: _ => exact fun calls => .mapM (fun e => c.asksOnlyReads_number e calls) _

theorem length_mapM_number (es : List Expr) (s : σ) :
    ((es.mapM c.number).run s).1.length = es.length := by
  induction es generalizing s with
  | nil => rfl
  | cons e es ih =>
    rw [List.mapM_cons]
    exact congrArg (· + 1) (ih ((c.number e).run s).2)

theorem length_valuesOf (h : args.length ∈ [1, w]) (s : σ) :
    ((c.valuesOf w args).run s).1.length = w := by
  match args with
  -- one argument stands for all values, on a channel of width one too
  | [e] => exact List.length_replicate
  | [] =>
    have counted : 0 = w := by simpa using h
    exact counted
  | e :: e' :: args =>
    have counted : (e :: e' :: args).length = w := by simpa using h
    exact (c.length_mapM_number (e :: e' :: args) s).trans counted

theorem targetOf_notes (h : args.length ∈ countsOfCall w) (n : Noted σ ο τ) :
    ∃ (target : Option (List Float)) (names : List String) (s' : σ),
      (∀ values ∈ target, values.length = w) ∧
      Notes (c.noting.targetOf w args) (c.targetOf w args) n (.ok target)
        (n.1 ++ names.map .read, s') := by
  by_cases two : args.length = 2
  · refine ⟨none, [], n.2, by simp, ?_⟩
    rw [targetOf, targetOf, if_pos two, if_pos two, List.map_nil, List.append_nil]
    exact .pure none
  · have counts : args.length = 2 ∨ args.length = 3 ∨ args.length = 2 + w := by
      simpa [countsOfCall] using h
    have enough : 2 ≤ args.length := by omega
    have counted : (args.drop 2).length ∈ [1, w] := by
      simp only [List.length_drop, List.mem_cons, List.not_mem_nil, or_false]
      omega
    obtain ⟨names, noted⟩ := (c.asksOnlyReads_valuesOf w (args.drop 2)).notes_map some n
    rw [targetOf, targetOf, if_neg two, if_neg two, argumentsFrom, if_pos enough]
    refine ⟨_, names, _, ?_, noted⟩
    rintro values ⟨⟩
    exact c.length_valuesOf counted n.2

theorem settingOf_notes {l : Link} (fits : l.Fits w) (n : Noted σ ο τ) :
    ∃ (setting : Setting) (names : List String) (s' : σ), setting.IsWide w ∧
      Notes (c.noting.settingOf w l) (c.settingOf w l) n (.ok setting)
        (n.1 ++ names.map .read, s') := by
  cases l with
  | start relative args =>
    obtain ⟨names, noted⟩ := (c.asksOnlyReads_valuesOf w args).notes_map (Setting.start relative) n
    refine ⟨_, names, _, ?_, noted⟩
    exact c.length_valuesOf fits n.2
  | delay args =>
    obtain ⟨e, rfl⟩ := List.length_eq_one_iff.mp (List.mem_singleton.mp fits)
    obtain ⟨names, noted⟩ := (c.asksOnlyReads_number e).notes_map Setting.delay n
    refine ⟨_, names, _, ?_, noted⟩
    trivial
  | animate args =>
    obtain ⟨e, rfl⟩ := List.length_eq_one_iff.mp (List.mem_singleton.mp fits)
    obtain ⟨names, noted⟩ := (c.asksOnlyReads_truth e).notes_map Setting.animate n
    refine ⟨_, names, _, ?_, noted⟩
    trivial
  | ease e args => exact ⟨.ease e, [], n.2, trivial, Notes.pure_nil _⟩
  | andThen body => exact ⟨.andThen ⟨body, c.scope⟩, [], n.2, trivial, Notes.pure_nil _⟩

theorem buildLinks_notes {links : List Link} (fits : ∀ l ∈ links, l.Fits w) (t : τ)
    (n : Noted σ ο τ) :
    ∃ (later : List (Call ο τ)) (s' : σ), (∀ call ∈ later, call.Tells w t) ∧
      Notes (c.noting.buildLinks w t links) (c.buildLinks w t links) n (.ok ())
        (n.1 ++ later, s') := by
  induction links generalizing n with
  | nil => exact ⟨[], n.2, by simp, Notes.pure_nil ()⟩
  | cons l links ih =>
    obtain ⟨first, rest⟩ := List.forall_mem_cons.mp fits
    obtain ⟨setting, names, s₁, wide, found⟩ := c.settingOf_notes first n
    have told := Notes.call (c.host.configure t setting) (.configure t setting)
      (n.1 ++ names.map .read, s₁)
    obtain ⟨later, s', tells, done⟩ := ih rest
      (n.1 ++ names.map .read ++ [.configure t setting], ((c.host.configure t setting).run s₁).2)
    refine ⟨names.map .read ++ ([.configure t setting] ++ later), s', ?_, ?_⟩
    · simp only [List.forall_mem_append, List.forall_mem_map, List.forall_mem_singleton]
      exact ⟨fun _ _ => trivial, ⟨rfl, wide⟩, tells⟩
    · rw [← List.append_assoc, ← List.append_assoc]
      exact found.bind (told.bind done)

theorem buildCall_eq {chain : Chain} {name : String} {duration : Expr} {values : List Expr}
    (given : chain.args = .variable name :: duration :: values) :
    c.buildCall chain = (do
      let object ← building (c.resolveObject name)
      let d ← c.number duration
      let target ← c.targetOf chain.channel.width chain.args
      building (c.host.createTween object chain.channel d target)) := by
  have named : firstName chain.name chain.args = .ok name := by
    rw [firstName, given]
    rfl
  have second : argument chain.args 1 = .ok duration := by
    rw [argument, given]
    rfl
  rw [buildCall, named, second]
  rfl

theorem resolve_notes {name : String} {n : Noted σ ο τ} {outcome : Except Fault ο} {s' : σ}
    (h : (c.resolveObject name).run.run n.2 = (outcome, s')) :
    Notes (building (c.noting.resolveObject name)) (building (c.resolveObject name)) n
      (outcome.mapError .fault) (n.1 ++ [.resolve (c.scope.path name)], s') :=
  .action h

theorem create_notes {object : ο} {channel : Channel} {duration : Float}
    {target : Option (List Float)} {n : Noted σ ο τ} {outcome : Except Fault τ} {s' : σ}
    (h : (c.host.createTween object channel duration target).run.run n.2 = (outcome, s')) :
    Notes (building (c.noting.host.createTween object channel duration target))
      (building (c.host.createTween object channel duration target)) n
      (outcome.mapError .fault) (n.1 ++ [.create object channel duration target], s') :=
  .action h

theorem buildCall_notes {chain : Chain} {name : String} {duration : Expr} {values : List Expr}
    (given : chain.args = .variable name :: duration :: values) (counted : chain.CallFits)
    {object : ο} {s s₁ : σ} (resolved : (c.resolveObject name).run.run s = (.ok object, s₁)) :
    ∃ (d : Float) (target : Option (List Float)) (names : List String) (s₂ : σ),
      (∀ values ∈ target, values.length = chain.channel.width) ∧
      ∀ outcome s₃,
        (c.host.createTween object chain.channel d target).run.run s₂ = (outcome, s₃) →
        Notes (c.noting.buildCall chain) (c.buildCall chain) ([], s) (outcome.mapError .fault)
          (.resolve (c.scope.path name) :: names.map .read ++
            [.create object chain.channel d target], s₃) := by
  have found := c.resolve_notes (n := ([], s)) resolved
  obtain ⟨names, timed⟩ := (c.asksOnlyReads_number duration).notes
    ([.resolve (c.scope.path name)], s₁)
  obtain ⟨target, names', s₂, wide, aimed⟩ := c.targetOf_notes counted
    (.resolve (c.scope.path name) :: names.map .read, ((c.number duration).run s₁).2)
  refine ⟨((c.number duration).run s₁).1, target, names ++ names', s₂, wide, ?_⟩
  intro outcome s₃ created
  rw [c.buildCall_eq given, c.noting.buildCall_eq given, List.map_append]
  exact found.bind (timed.bind (aimed.bind (c.create_notes created)))

/-- Behind the checks building by position is as `Built` says. -/
theorem build_notes {chain : Chain} {p : Plan} (h : chain.plan = .ok p) (s : σ) :
    ∃ outcome calls s', Notes (c.noting.build chain) (c.build chain) ([], s) outcome (calls, s') ∧
      Built c.host chain.channel s outcome calls s' := by
  obtain ⟨⟨name, duration, values, given⟩, counted, fits⟩ := fits_of_plan h
  rcases resolved : (c.resolveObject name).run.run s with ⟨f | object, s₁⟩
  · have missed := c.resolve_notes (n := ([], s)) resolved
    refine ⟨_, _, _, ?_, .missed resolved⟩
    rw [build, build, c.buildCall_eq given, c.noting.buildCall_eq given]
    exact missed.stop.stop
  · obtain ⟨d, target, names, s₂, wide, called⟩ := c.buildCall_notes given counted resolved
    rcases created : (c.host.createTween object chain.channel d target).run.run s₂ with ⟨f | t, s₃⟩
    · exact ⟨_, _, _, (called _ _ created).stop, .refused names resolved wide created⟩
    · obtain ⟨later, s', told, done⟩ := c.buildLinks_notes fits t
        (.resolve (c.scope.path name) :: names.map .read ++ [.create object chain.channel d target],
          s₃)
      refine ⟨_, _, s', ?_, .made names resolved wide created told⟩
      rw [List.append_cons]
      exact (called _ _ created).bind (done.bind (.pure t))

theorem buildSetActive_notes (h : args.length ≠ 2) (n : Noted σ ο τ) :
    Notes (c.noting.buildSetActive args) (c.buildSetActive args) n
      (.error (.fault (.arity "Active" "2" args.length))) n := by
  rw [buildSetActive, buildSetActive, if_pos h, if_pos h]
  exact ⟨rfl, rfl⟩

/-- Whatever the host and its state, a chain is evaluated by counting its arguments and then
building by position, and with the counts behind it building misses no argument: the host is asked
for one object and for one tween, the tween is told things only after that, and a fault comes of
nothing but the two requests. Whenever the host is given values, they are as many as the channel of
the call has. Switching an object counts its arguments before it takes one by position. -/
theorem build_contract (s : σ) :
    (∀ chain : Chain,
      building (chain.evaluate c) =
        (match chain.plan with
        | .ok _ => c.build chain
        | .error f => throw (.fault f)) ∧
      ∀ p, chain.plan = .ok p →
        ∃ outcome calls s',
          Notes (c.noting.build chain) (c.build chain) ([], s) outcome (calls, s') ∧
          Built c.host chain.channel s outcome calls s') ∧
    ∀ args : List Expr,
      building (evaluateSetActive c args) = c.buildSetActive args ∧
      ((c.buildSetActive args).run.run s).1 ≠ .error .outOfRange ∧
      (args.length ≠ 2 →
        Notes (c.noting.buildSetActive args) (c.buildSetActive args) ([], s)
          (.error (.fault (.arity "Active" "2" args.length))) ([], s)) := by
  refine ⟨fun chain => ⟨c.evaluate_eq_build chain, fun p h => c.build_notes h s⟩, fun args => ?_⟩
  refine ⟨c.setActive_eq_build args, ?_, fun h => c.buildSetActive_notes h ([], s)⟩
  rw [← c.setActive_eq_build args]
  exact building_ne_outOfRange _ s

/-- One target value for all three of a color, and start values one by one. -/
theorem build_color_contract :
    let chain : Chain := ⟨.color, "C", [.variable "Title", .variable "time", .number 1],
      [.start false [.number 0, .variable "x", .number 1], .delay [.number 2]]⟩
    let c := Recorder.context []
    (∃ p, chain.plan = .ok p) ∧ ∃ outcome calls s',
      Notes (c.noting.build chain) (c.build chain) ([], {}) outcome (calls, s') ∧
      Built c.host chain.channel {} outcome calls s' := by
  intro chain c
  obtain ⟨p, planned⟩ : ∃ p, chain.plan = .ok p := ⟨_, rfl⟩
  exact ⟨⟨p, planned⟩, ((c.build_contract {}).1 chain).2 p planned⟩

/-- Without its checks a chain misses an argument after it was given an object. -/
example :
    (((Recorder.context []).build ⟨.alpha, "A", [.variable "Title"], []⟩).run.run {}).1 =
      .error .outOfRange :=
  rfl

end contract

end Context

end TweenScript
