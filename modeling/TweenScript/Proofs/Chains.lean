import TweenScript.Proofs.Arity
import TweenScript.Proofs.Atomicity
import TweenScript.Proofs.Views

/-!
# What a chain makes

A chain that has a plan and whose object is found makes one tween. Of the links that set the same
thing the last one counts, but all of them read their variables, and the bodies of the `Then` links
wait in source order (`Recorder.evaluate_chain`).
-/

namespace TweenScript

/-! ## What links tell -/

/-- The values that numbers give for a channel of width `w`: a single one stands for all of them. -/
def spread (w : Nat) : List Float → List Float
  | [v] => List.replicate w v
  | vs => vs

/-- The target values of a call on a channel of width `w`, if it has arguments for them. -/
def targetIn (look : String → Option Float) (w : Nat) (values : List Expr) : Option (List Float) :=
  if values.isEmpty then none else some (spread w (values.map (Expr.numberIn look)))

/-- The bodies of the `Then` links, in source order. -/
def Chain.bodies (c : Chain) : List Statement :=
  c.links.filterMap fun
    | .andThen body => some body
    | _ => none

namespace Link

variable (look : String → Option Float)

/-- What a link tells a tween of a channel of width `w` in a scope; nothing if its argument count is
wrong. -/
def setting? (scope : Scope) (w : Nat) : Link → Option Setting
  | start relative args => some (.start relative (spread w (args.map (Expr.numberIn look))))
  | delay [e] => some (.delay (e.numberIn look))
  | animate [e] => some (.animate (e.truthIn look))
  | ease e _ => some (.ease e)
  | andThen body => some (.andThen ⟨body, scope⟩)
  | delay _ | animate _ => none

/-- The variables that the arguments of a link read. -/
def reads (l : Link) : List String :=
  l.args.flatMap (Expr.reads look)

end Link

namespace Setting

/-- Start values, if that is what the setting is about. -/
def start? : Setting → Option StartValues
  | start relative values => some ⟨values, relative⟩
  | _ => none

/-- A delay, if that is what the setting is about. -/
def delay? : Setting → Option Float
  | delay seconds => some seconds
  | _ => none

/-- Whether the tween plays, if that is what the setting is about. -/
def animate? : Setting → Option Bool
  | animate on => some on
  | _ => none

/-- An easing, if that is what the setting is about. -/
def ease? : Setting → Option Ease
  | ease e => some e
  | _ => none

/-- A continuation, if that is what the setting is about. -/
def continuation? : Setting → Option Continuation
  | andThen k => some k
  | _ => none

end Setting

theorem continuations_eq_map (look : String → Option Float) (scope : Scope) (w : Nat) (c : Chain) :
    (c.links.filterMap (Link.setting? look scope w)).filterMap Setting.continuation? =
      c.bodies.map fun body => ⟨body, scope⟩ := by
  rw [Chain.bodies, List.filterMap_filterMap, List.map_filterMap]
  refine List.filterMap_congr fun l _ => ?_
  unfold Link.setting?
  split <;> rfl

/-! ## The last setting counts -/

/-- The record of a tween that is told a setting. -/
def TweenRecord.tell (t : TweenRecord) : Setting → TweenRecord
  | .start relative values => { t with start := some ⟨values, relative⟩ }
  | .delay seconds => { t with delay := seconds }
  | .animate on => { t with animate := on }
  | .ease e => { t with ease := some e }
  | .andThen _ => { t with continuations := t.continuations + 1 }

theorem getLast?_filterMap_cons {α β : Type} (f : α → Option β) (a : α) (l : List α) :
    ((a :: l).filterMap f).getLast? = (l.filterMap f).getLast?.or (f a) := by
  cases h : f a <;> simp [h, List.getLast?_cons]

theorem foldl_tell (settings : List Setting) (t : TweenRecord) :
    settings.foldl TweenRecord.tell t =
      { t with
        start := (settings.filterMap Setting.start?).getLast?.or t.start
        delay := (settings.filterMap Setting.delay?).getLast?.getD t.delay
        animate := (settings.filterMap Setting.animate?).getLast?.getD t.animate
        ease := (settings.filterMap Setting.ease?).getLast?.or t.ease
        continuations := t.continuations + (settings.filterMap Setting.continuation?).length } := by
  induction settings generalizing t with
  | nil => rfl
  | cons s settings ih =>
    rw [List.foldl_cons, ih]
    -- what comes later counts, and `s` only where nothing does
    simp only [getLast?_filterMap_cons]
    cases s <;> simp +arith [TweenRecord.tell, Setting.start?, Setting.delay?, Setting.animate?,
      Setting.ease?, Setting.continuation?, List.filterMap_cons]

namespace Recorder

/-- The recorder with one tween more, whose continuations wait. -/
def withTween (r : Recorder) (t : TweenRecord) (ks : List Continuation) : Recorder :=
  { r with
    tweens := r.tweens.push t
    pending := r.pending ++ ks.map (r.tweens.size, ·)
    events := r.events.push (.tween r.tweens.size) }

theorem create_eq (r : Recorder) (object : String) (channel : Channel) (duration : Float)
    (target : Option (List Float)) : r.create object channel duration target =
      r.withTween { id := r.tweens.size, object, channel, duration, target } [] := by
  simp [create, withTween]

theorem modify_push {α : Type} (xs : Array α) (a : α) (f : α → α) :
    (xs.push a).modify xs.size f = xs.push (f a) := by
  refine Array.ext_getElem? fun i => ?_
  simp only [Array.getElem?_modify, Array.getElem?_push]
  by_cases h : i = xs.size <;> simp [h, eq_comm]

theorem configure_withTween (r : Recorder) (t : TweenRecord) (ks : List Continuation)
    (s : Setting) : (r.withTween t ks).configure r.tweens.size s =
      r.withTween (t.tell s) (ks ++ s.continuation?.toList) := by
  cases s <;>
    simp [configure, change, withTween, modify_push, TweenRecord.tell, Setting.continuation?]

section evaluation

variable (scope : Scope)

theorem mapM_number_run (es : List Expr) (r : Recorder) :
    (es.mapM (context scope).number).run r =
      (es.map (Expr.numberIn (r.look scope)),
        r.noteReads (es.flatMap (Expr.reads (r.look scope)))) := by
  induction es generalizing r with
  | nil => exact run_pure_reads _ r
  | cons e es ih =>
    rw [List.mapM_cons]
    exact run_bind_reads (number_run scope e r) (run_answer_reads (ih _) _)

theorem values_run {w : Nat} {args : List Expr} {vs : Values} (h : Values.ofList? w args = some vs)
    (r : Recorder) : ((context scope).values w vs).run r =
      (spread w (args.map (Expr.numberIn (r.look scope))),
        r.noteReads (args.flatMap (Expr.reads (r.look scope)))) := by
  match args with
  | [] =>
    obtain ⟨-, rfl⟩ : 0 = w ∧ Values.each [] = vs := by simpa [Values.ofList?] using h
    exact mapM_number_run scope [] r
  | [e] =>
    obtain rfl : Values.same e = vs := by simpa [Values.ofList?] using h
    rw [List.flatMap_singleton]
    exact run_answer_reads (number_run scope e r) _
  | e :: e' :: args =>
    obtain ⟨-, rfl⟩ : args.length + 2 = w ∧ Values.each (e :: e' :: args) = vs := by
      simpa [Values.ofList?] using h
    exact mapM_number_run scope (e :: e' :: args) r

theorem target_run {w : Nat} {values : List Expr} {target : Option Values}
    (h : targetOf? w values = some target) (r : Recorder) :
    ((context scope).target w target).run r =
      (targetIn (r.look scope) w values,
        r.noteReads (values.flatMap (Expr.reads (r.look scope)))) := by
  cases values with
  | nil =>
    obtain rfl : none = target := by simpa [targetOf?] using h
    exact run_pure_reads _ r
  | cons e values =>
    obtain ⟨vs, hvs, rfl⟩ : ∃ vs, Values.ofList? w (e :: values) = some vs ∧ some vs = target := by
      simpa [targetOf?] using h
    exact run_answer_reads (values_run scope hvs r) some

theorem setting_run {w : Nat} {l : Link} {step : Step} (h : l.step w = .ok step) (r : Recorder) :
    ∃ setting, l.setting? (r.look scope) scope w = some setting ∧
      ((context scope).setting w step).run r = (setting, r.noteReads (l.reads (r.look scope))) := by
  cases l with
  | start relative args =>
    obtain ⟨vs, hvs, rfl⟩ : ∃ vs, Values.ofList? w args = some vs ∧ Step.start relative vs = step := by
      simpa [Link.step, map_eq_ok_iff, startValues_eq_ok_iff] using h
    exact ⟨_, rfl, run_answer_reads (values_run scope hvs r) (Setting.start relative)⟩
  | delay args =>
    obtain ⟨e, rfl, rfl⟩ : ∃ e, args = [e] ∧ Step.delay e = step := by
      simpa [Link.step, map_eq_ok_iff, onlyArgument_eq_ok_iff] using h
    refine ⟨_, rfl, ?_⟩
    rw [Link.reads, Link.args, List.flatMap_singleton]
    exact run_answer_reads (number_run scope e r) Setting.delay
  | animate args =>
    obtain ⟨e, rfl, rfl⟩ : ∃ e, args = [e] ∧ Step.animate e = step := by
      simpa [Link.step, map_eq_ok_iff, onlyArgument_eq_ok_iff] using h
    refine ⟨_, rfl, ?_⟩
    rw [Link.reads, Link.args, List.flatMap_singleton]
    exact run_answer_reads (truth_run scope e r) Setting.animate
  | ease e args =>
    obtain ⟨rfl, rfl⟩ : args = [] ∧ Step.ease e = step := by
      simpa [Link.step, map_eq_ok_iff, noArguments_eq_ok_iff] using h
    exact ⟨_, rfl, run_pure_reads _ r⟩
  | andThen body =>
    cases h
    exact ⟨_, rfl, run_pure_reads _ r⟩

theorem tell_run {w : Nat} {l : Link} {step : Step} (h : l.step w = .ok step) (r : Recorder)
    (t : TweenRecord) (ks : List Continuation) :
    ∃ setting, l.setting? (r.look scope) scope w = some setting ∧
      (do (context scope).host.configure r.tweens.size (← (context scope).setting w step)).run
          (r.withTween t ks) =
        ((), (r.noteReads (l.reads (r.look scope))).withTween (t.tell setting)
          (ks ++ setting.continuation?.toList)) := by
  obtain ⟨setting, told, run_eq⟩ := setting_run scope h (r.withTween t ks)
  refine ⟨setting, told, ?_⟩
  rw [StateT.run_bind, run_eq]
  exact congrArg (Prod.mk ())
    (configure_withTween (r.noteReads (l.reads (r.look scope))) t ks setting)

theorem configure_run {w : Nat} {links : List Link} {steps : List Step}
    (h : List.Forall₂ (fun l step => l.step w = .ok step) links steps) (r : Recorder)
    (t : TweenRecord) (ks : List Continuation) :
    let told := links.filterMap (Link.setting? (r.look scope) scope w)
    ((context scope).configure w r.tweens.size steps).run (r.withTween t ks) =
      ((), (r.noteReads (links.flatMap (Link.reads (r.look scope)))).withTween
        (told.foldl TweenRecord.tell t) (ks ++ told.filterMap Setting.continuation?)) := by
  induction h generalizing r t ks with
  | nil =>
    simp only [List.filterMap_nil, List.foldl_nil, List.append_nil, List.flatMap_nil, noteReads_nil]
    rfl
  | @cons l step links steps hl _ ih =>
    obtain ⟨setting, told, first⟩ := tell_run scope hl r t ks
    -- the reads do not change what the variables of the later links stand for
    have rest := ih (r.noteReads (l.reads (r.look scope))) (t.tell setting)
      (ks ++ setting.continuation?.toList)
    rw [look_noteReads, noteReads_noteReads] at rest
    rw [Context.configure, ← bind_assoc, StateT.run_bind, first]
    refine rest.trans ?_
    simp only [List.filterMap_cons, told, List.foldl_cons, List.flatMap_cons, List.append_assoc]
    cases setting.continuation? <;> rfl

theorem createTween_run (object : String) (channel : Channel) (duration : Float)
    (target : Option (List Float)) (r : Recorder) :
    ((context scope).host.createTween object channel duration target).run.run r =
      (.ok r.tweens.size,
        r.withTween { id := r.tweens.size, object, channel, duration, target } []) := by
  rw [← create_eq]
  rfl

theorem make_run {p : Plan} {values : List Expr} {links : List Link}
    (target : targetOf? p.channel.width values = some p.target)
    (steps : List.Forall₂ (fun l step => l.step p.channel.width = .ok step) links p.steps)
    {r : Recorder} {path : String} (found : r.resolve (scope.path p.object) = .ok path) :
    let look := r.look scope
    let told := links.filterMap (Link.setting? look scope p.channel.width)
    let made : TweenRecord :=
      { id := r.tweens.size, object := path, channel := p.channel
        duration := p.duration.numberIn look, target := targetIn look p.channel.width values }
    ((context scope).make p).run.run r =
      (.ok r.tweens.size,
        (r.noteReads (p.duration.reads look ++ values.flatMap (Expr.reads look) ++
          links.flatMap (Link.reads look))).withTween
            (told.foldl TweenRecord.tell made) (told.filterMap Setting.continuation?)) := by
  intro look told made
  have resolved : ((context scope).resolveObject p.object).run.run r = (.ok path, r) := by
    rw [resolveObject_run, found]
  rw [Context.make]
  refine (run_bind_ok resolved).trans ?_
  refine (run_bind_ok (run_lift (number_run scope p.duration r))).trans ?_
  refine (run_bind_ok (run_lift (target_run scope target _))).trans ?_
  rw [noteReads_noteReads]
  refine (run_bind_ok (createTween_run scope _ _ _ _ _)).trans ?_
  refine (run_bind_ok (run_lift (configure_run scope steps _ made []))).trans ?_
  rw [noteReads_noteReads]
  rfl

theorem make_missed {p : Plan} {r : Recorder} {f : Fault}
    (missed : r.resolve (scope.path p.object) = .error f) :
    ((context scope).make p).run.run r = (.error f, r) := by
  have resolved := resolveObject_run scope p.object r
  rw [missed] at resolved
  rw [Context.make]
  exact run_bind_error resolved

/-- A chain ends in a fault, or makes a tween that its bodies wait for. -/
theorem chain_run (chain : Chain) (r : Recorder) :
    (∃ f, (chain.evaluate (context scope)).run.run r = (.error f, r)) ∨
      ∃ names t, (chain.evaluate (context scope)).run.run r = (.ok r.tweens.size,
        (r.noteReads names).withTween t (chain.bodies.map fun body => ⟨body, scope⟩)) := by
  cases hp : chain.plan with
  | error f =>
    rw [Chain.evaluate, hp]
    exact .inl ⟨f, rfl⟩
  | ok p =>
    rw [Chain.evaluate, hp]
    obtain ⟨call, steps, hc, hs, rfl⟩ := plan_eq_ok_iff.mp hp
    obtain ⟨name, duration, values, target, -, aimed, rfl⟩ := planCall_eq_ok_iff.mp hc
    cases found : r.resolve (scope.path name) with
    | error f => exact .inl ⟨f, make_missed scope found⟩
    | ok path =>
      rw [← continuations_eq_map (r.look scope) scope chain.channel.width]
      exact .inr ⟨_, _, make_run scope aimed (mapM_eq_ok_iff.mp hs) found⟩

end evaluation

/-- A chain that has a plan and whose object is found makes one tween and changes nothing else. The
tween has the next number, the object that was found, the channel of the call, and a value for each
part of the channel if it has a target. The last start values, the last delay, the last word on
whether it plays and the last easing count. The bodies of the `Then` links wait for it in source
order, and the variables are read in source order. -/
theorem evaluate_chain {chain : Chain} (passes : ∃ p, chain.plan = .ok p) :
    ∃ name duration values, chain.args = .variable name :: duration :: values ∧
      values.length ∈ [0, 1, chain.channel.width] ∧
      ∀ (scope : Scope) (r : Recorder) (path : String), r.resolve (scope.path name) = .ok path →
        let look := r.look scope
        let told := chain.links.filterMap (Link.setting? look scope chain.channel.width)
        (chain.evaluate (context scope)).run.run r =
          (.ok r.tweens.size,
            { r with
              tweens := r.tweens.push
                { id := r.tweens.size
                  object := path
                  channel := chain.channel
                  duration := duration.numberIn look
                  target := if values.isEmpty then none
                    else some (spread chain.channel.width (values.map (Expr.numberIn look)))
                  start := (told.filterMap Setting.start?).getLast?
                  delay := (told.filterMap Setting.delay?).getLast?.getD 0
                  animate := (told.filterMap Setting.animate?).getLast?.getD true
                  ease := (told.filterMap Setting.ease?).getLast?
                  continuations := chain.bodies.length
                  completed := false }
              pending := r.pending ++ chain.bodies.map fun body => (r.tweens.size, ⟨body, scope⟩)
              events := r.events.push (.tween r.tweens.size)
              reads := r.reads ++ (duration.reads look ++ values.flatMap (Expr.reads look) ++
                chain.links.flatMap (Link.reads look)).toArray }) := by
  obtain ⟨p, hp⟩ := passes
  obtain ⟨call, steps, hc, hs, rfl⟩ := plan_eq_ok_iff.mp hp
  obtain ⟨name, duration, values, target, args, aimed, rfl⟩ := planCall_eq_ok_iff.mp hc
  refine ⟨name, duration, values, args, ?_, fun scope r path found => ?_⟩
  · have counted : values.length + 2 ∈ countsOfCall chain.channel.width := by
      by_contra wrong
      rw [targetOf?_eq_none_iff.mpr wrong] at aimed
      cases aimed
    simp only [countsOfCall, List.mem_cons, List.not_mem_nil, or_false] at counted ⊢
    omega
  · intro look told
    rw [Chain.evaluate, hp]
    refine (make_run scope aimed (mapM_eq_ok_iff.mp hs) found).trans ?_
    rw [foldl_tell, continuations_eq_map, withTween]
    simp only [Option.or_none, List.length_map, Nat.zero_add, List.map_map]
    rfl

/-- Start values and a delay that are set once more, among continuations. -/
theorem evaluate_chain_set_twice :
    let chain : Chain :=
      ⟨.position .xy, "P", [.variable "Title", .variable "time", .variable "x"],
        [.start true [.variable "y"], .andThen (.expr .callback), .delay [.variable "x"],
          .animate [.callback], .start false [.variable "x", .variable "y"],
          .ease ⟨.quadratic, .into⟩ [], .delay [.variable "y"], .andThen (.block [])]⟩
    let scope : Scope := [{ paths := [("Title", "Page/Title")], values := [("x", 3), ("y", 4)] }]
    (∃ p, chain.plan = .ok p) ∧
    ({} : Recorder).resolve (scope.path "Title") = .ok "Page/Title" ∧
    (chain.evaluate (context scope)).run.run {} =
      (.ok 0,
        { tweens :=
            #[{ id := 0, object := "Page/Title", channel := .position .xy, duration := 0,
                target := some [3, 3], start := some ⟨[3, 4], false⟩, delay := 4,
                ease := some ⟨.quadratic, .into⟩, continuations := 2 }]
          pending := [(0, ⟨.expr .callback, scope⟩), (0, ⟨.block [], scope⟩)]
          events := #[.tween 0]
          reads := #["time", "x", "y", "x", "x", "y", "y"] }) := by
  intro chain scope
  have passes : ∃ p, chain.plan = .ok p := ⟨_, rfl⟩
  have found : ({} : Recorder).resolve (scope.path "Title") = .ok "Page/Title" := rfl
  refine ⟨passes, found, ?_⟩
  obtain ⟨name, duration, values, args, -, run_eq⟩ := evaluate_chain passes
  cases args
  exact (run_eq scope {} "Page/Title" found).trans rfl

end Recorder

end TweenScript
