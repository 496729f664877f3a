import TweenScript.Proofs.Chains
import TweenScript.Proofs.Rewriting
import TweenScript.Proofs.Simulation

/-!
# Bodies wait unopened

A body of a `Then` link is registered and not looked into. Programs that differ in such bodies alone
do the same, and what waits after them differs in the bodies of the chains that were made, which
stand at the same places in both (`Recorder.evaluate_of_hollow_eq`).
-/

namespace TweenScript

/-! ## Programs without bodies -/

/-- The program with nothing in the bodies of its `Then` links, wherever they stand. -/
def Statement.hollow (s : Statement) : Statement :=
  s.rewrite id fun _ => .block []

/-- The chain with nothing in the bodies of its `Then` links, wherever they stand. -/
def Chain.hollow (c : Chain) : Chain :=
  c.rewrite id fun _ => .block []

/-- A continuation with an empty body. -/
def Continuation.hollow (k : Continuation) : Continuation :=
  { k with body := .block [] }

theorem bodies_hollow (c : Chain) : c.hollow.bodies = c.bodies.map fun _ => .block [] := by
  obtain ⟨channel, name, args, links⟩ := c
  simp only [Chain.hollow, Chain.rewrite, Chain.bodies, rewriteLinks_eq_map, List.filterMap_map,
    List.map_filterMap]
  refine List.filterMap_congr fun l _ => ?_
  cases l <;> rfl

namespace Recorder

/-! ## Chains made -/

section made

variable (scope : Scope)

mutual

/-- The chains of a statement that make a tween when it is evaluated on a recorder, in that order.
With each of them stand the numbers of the statements that lead to it through the blocks. -/
def made : Statement → Recorder → List (List Nat × Chain)
  | .block body, r => madeByAll 0 body r
  | .when condition body, r =>
    if condition.truthIn (r.look scope) then made body (((context scope).truth condition).run r).2
    else []
  | .expr (.tween chain), r =>
    match (chain.evaluate (context scope)).run.run r with
    | (.ok _, _) => [([], chain)]
    | (.error _, _) => []
  | .expr _, _ => []

/-- The same of statements numbered from `i` on, up to the first fault. -/
def madeByAll (i : Nat) : List Statement → Recorder → List (List Nat × Chain)
  | [], _ => []
  | s :: body, r =>
    (made s r).map (fun p => (i :: p.1, p.2)) ++
      match (s.evaluate (context scope)).run.run r with
      | (.ok _, r') => madeByAll (i + 1) body r'
      | (.error _, _) => []

end

/-- The continuations of chains whose tweens are numbered from `n` on. -/
def waits (n : Nat) : List Chain → List (Nat × Continuation)
  | [] => []
  | chain :: chains => chain.bodies.map (fun body => (n, ⟨body, scope⟩)) ++ waits (n + 1) chains

theorem waits_append (n : Nat) (xs ys : List Chain) :
    waits scope n (xs ++ ys) = waits scope n xs ++ waits scope (n + xs.length) ys := by
  induction xs generalizing n with
  | nil => rfl
  | cons chain xs ih =>
    rw [List.cons_append, waits, waits, ih, List.append_assoc, List.length_cons, Nat.add_assoc,
      Nat.add_comm 1]

theorem waits_hollow (n : Nat) (chains : List Chain) :
    waits scope n (chains.map Chain.hollow) =
      (waits scope n chains).map (Prod.map id Continuation.hollow) := by
  induction chains generalizing n with
  | nil => rfl
  | cons chain chains ih =>
    simp only [List.map_cons, waits, bodies_hollow, ih, List.map_append, List.map_map]
    rfl

end made

/-! ## What waits does not matter -/

/-- The recorders are the same but for what waits. -/
def SameButWaiting (r r' : Recorder) : Prop :=
  ∃ waiting, r' = { r with pending := waiting }

namespace SameButWaiting

variable {r r' r'' : Recorder}

theorem refl (r : Recorder) : r.SameButWaiting r :=
  ⟨r.pending, rfl⟩

theorem eq (h : r.SameButWaiting r') : r' = { r with pending := r'.pending } := by
  obtain ⟨waiting, rfl⟩ := h
  rfl

theorem symm (h : r.SameButWaiting r') : r'.SameButWaiting r := by
  obtain ⟨waiting, rfl⟩ := h
  exact ⟨r.pending, rfl⟩

theorem trans (h : r.SameButWaiting r') (h' : r'.SameButWaiting r'') : r.SameButWaiting r'' := by
  obtain ⟨waiting, rfl⟩ := h
  obtain ⟨waiting', rfl⟩ := h'
  exact ⟨waiting', rfl⟩

end SameButWaiting

section evaluation

variable (scope : Scope)

theorem rewriting_simulates (g : Statement → Statement) :
    Simulates (context scope) ((context scope).rewriting id g) SameButWaiting (· = ·)
      fun a b r r' => a = b ∧ r.SameButWaiting r' where
  resolve name := by
    rintro r _ ⟨waiting, rfl⟩
    rw [rewriting_resolveObject, id, resolveObject_run, resolveObject_run]
    show Outcomes _ _ (r.resolve (scope.path name)) (r.resolve (scope.path name)) _ _
    cases r.resolve (scope.path name) with
    | ok path => exact ⟨rfl, waiting, rfl⟩
    | error f => exact ⟨rfl, waiting, rfl⟩
  read name := by
    rintro r _ ⟨waiting, rfl⟩
    rw [rewriting_readVariable]
    exact ⟨rfl, waiting, rfl⟩
  readFor a _ name := by
    rintro r _ ⟨rfl, waiting, rfl⟩
    rw [rewriting_readVariable]
    exact ⟨rfl, rfl, waiting, rfl⟩
  setActive object _ active := by
    rintro rfl r _ ⟨waiting, rfl⟩
    exact ⟨waiting, rfl⟩
  callback := by
    rintro r _ ⟨waiting, rfl⟩
    exact ⟨waiting, rfl⟩
  create object _ channel duration target := by
    rintro rfl r _ ⟨waiting, rfl⟩
    exact ⟨rfl, waiting, rfl⟩
  configure a _ setting plain := by
    rintro r _ ⟨rfl, waiting, rfl⟩
    cases setting with
    | andThen k => exact plain.elim
    | _ => exact ⟨rfl, waiting, rfl⟩
  register a _ body := by
    rintro r _ ⟨rfl, waiting, rfl⟩
    exact ⟨rfl, waiting ++ [(a, ⟨g body, scope⟩)], rfl⟩
  release a b r r' h := h.2

/-- A program does what it does with empty bodies. -/
theorem evaluate_hollow (s : Statement) {r r' : Recorder} (h : r.SameButWaiting r') :
    Alike SameButWaiting ((s.evaluate (context scope)).run.run r).1
      ((s.hollow.evaluate (context scope)).run.run r').1
      ((s.evaluate (context scope)).run.run r).2
      ((s.hollow.evaluate (context scope)).run.run r').2 := by
  rw [Statement.hollow, evaluate_rewrite]
  exact ((rewriting_simulates scope _).statement s r r' h).alike_unit

theorem made_hollow_chain (chain : Chain) {r r' : Recorder} (h : r.SameButWaiting r') :
    made scope (.expr (.tween chain.hollow)) r' =
      (made scope (.expr (.tween chain)) r).map (Prod.map id Chain.hollow) := by
  have related := (rewriting_simulates scope fun _ => .block []).chain chain r r' h
  rw [← chain_rewrite] at related
  rw [made, made, Chain.hollow]
  revert related
  rcases (chain.evaluate (context scope)).run.run r with ⟨e | a, s⟩ <;>
    rcases ((chain.rewrite id fun _ => .block []).evaluate (context scope)).run.run r' with
      ⟨e' | a', s'⟩
  · exact fun _ => rfl
  · exact fun related => related.elim
  · exact fun related => related.elim
  · exact fun _ => rfl

mutual

theorem made_hollow : ∀ (s : Statement) {r r' : Recorder}, r.SameButWaiting r' →
    made scope s.hollow r' = (made scope s r).map (Prod.map id Chain.hollow)
  | .block body, r, r', h => by
    rw [Statement.hollow, Statement.rewrite, made, made]
    exact madeByAll_hollow 0 body h
  | .when condition body, r, r', h => by
    obtain ⟨waiting, rfl⟩ := h
    -- bodies inside the condition have no part in its value, nor in what is read for it
    rw [Statement.hollow, Statement.rewrite, made, made, Expr.truthIn, asTruth_rewrite,
      Context.truth, asTruth_rewrite]
    show (if condition.truthIn (r.look scope) then _ else _) = _
    split
    · refine made_hollow body ?_
      change (((context scope).truth condition).run r).2.SameButWaiting
        (((context scope).truth condition).run { r with pending := waiting }).2
      rw [truth_run, truth_run]
      exact ⟨waiting, rfl⟩
    · rfl
  | .expr e, r, r', h => by
    cases e with
    | tween chain => exact made_hollow_chain scope chain h
    | _ => rfl

theorem madeByAll_hollow (i : Nat) : ∀ (body : List Statement) {r r' : Recorder},
    r.SameButWaiting r' → madeByAll scope i (rewriteAll id (fun _ => .block []) body) r' =
      (madeByAll scope i body r).map (Prod.map id Chain.hollow)
  | [], r, r', h => rfl
  | s :: body, r, r', h => by
    have first := made_hollow s h
    obtain ⟨same, h'⟩ := evaluate_hollow scope s h
    rw [Statement.hollow] at first same h'
    rw [rewriteAll, madeByAll, madeByAll, first, List.map_append, List.map_map, List.map_map]
    congr 1
    -- either both end at `s` or both go on, from recorders that are the same but for what waits
    revert same h'
    rcases (s.evaluate (context scope)).run.run r with ⟨e | a, s₁⟩ <;>
      rcases ((s.rewrite id fun _ => .block []).evaluate (context scope)).run.run r' with
        ⟨e' | a', s₂⟩
    · exact fun _ _ => rfl
    · exact fun same => nomatch same
    · exact fun same => nomatch same
    · exact fun _ h' => madeByAll_hollow (i + 1) body h'

end

theorem setActive_run (args : List Expr) (r : Recorder) :
    (∃ f, (evaluateSetActive (context scope) args).run.run r = (.error f, r)) ∨
      ∃ names object active, (evaluateSetActive (context scope) args).run.run r =
        (.ok (), (r.noteReads names).switch object active) := by
  unfold evaluateSetActive
  split
  · rename_i object flag
    cases objectName "Active" object with
    | error f => exact .inl ⟨f, rfl⟩
    | ok name =>
      have resolved := resolveObject_run scope name r
      cases found : r.resolve (scope.path name) with
      | error f =>
        rw [found] at resolved
        exact .inl ⟨f, (run_bind_ok rfl).trans (run_bind_error resolved)⟩
      | ok path =>
        rw [found] at resolved
        refine .inr ⟨flag.reads (r.look scope), path, flag.truthIn (r.look scope), ?_⟩
        refine (run_bind_ok rfl).trans ((run_bind_ok resolved).trans ?_)
        exact run_bind_ok (run_lift (truth_run scope flag r))
  · exact .inl ⟨_, rfl⟩

/-- From `r` to `r'` every one of the chains made a tween, and their continuations wait. -/
def Gains (chains : List Chain) (r r' : Recorder) : Prop :=
  r'.pending = r.pending ++ waits scope r.tweens.size chains ∧
    r'.tweens.size = r.tweens.size + chains.length

theorem Gains.none {r r' : Recorder} (pending : r'.pending = r.pending)
    (tweens : r'.tweens = r.tweens) : Gains scope [] r r' :=
  ⟨by rw [pending, waits, List.append_nil], by rw [tweens]; rfl⟩

theorem Gains.one (chain : Chain) (r : Recorder) (names : List String) (t : TweenRecord) :
    Gains scope [chain] r
      ((r.noteReads names).withTween t (chain.bodies.map fun body => ⟨body, scope⟩)) := by
  constructor
  · simp [waits, withTween, noteReads]
  · simp [withTween, noteReads]

theorem Gains.trans {xs ys : List Chain} {r₁ r₂ r₃ : Recorder} (h : Gains scope xs r₁ r₂)
    (h' : Gains scope ys r₂ r₃) : Gains scope (xs ++ ys) r₁ r₃ := by
  constructor
  · rw [h'.1, h.1, h.2, waits_append, List.append_assoc]
  · rw [h'.2, h.2, List.length_append, Nat.add_assoc]

theorem gains_expr (e : Expr) (r : Recorder) :
    Gains scope ((made scope (.expr e) r).map Prod.snd) r
      ((e.evaluate (context scope)).run.run r).2 := by
  cases e with
  | tween chain =>
    rw [made, Expr.evaluate, run_discard]
    rcases chain_run scope chain r with ⟨f, run_eq⟩ | ⟨names, t, run_eq⟩
    · rw [run_eq]
      exact .none scope rfl rfl
    · rw [run_eq]
      exact .one scope chain r names t
  | setActive args =>
    rw [Expr.evaluate]
    rcases setActive_run scope args r with ⟨f, run_eq⟩ | ⟨names, object, active, run_eq⟩
    · rw [run_eq]
      exact .none scope rfl rfl
    · rw [run_eq]
      exact .none scope rfl rfl
  | callback => exact .none scope rfl rfl
  | _ =>
    rw [Expr.evaluate, run_discard]
    · rw [run_lift (number_run scope _ r)]
      exact .none scope rfl rfl
    all_goals simp

mutual

/-- What a program adds to what waits are the bodies of the chains it makes. -/
theorem gains_evaluate : ∀ (s : Statement) (r : Recorder),
    Gains scope ((made scope s r).map Prod.snd) r ((s.evaluate (context scope)).run.run r).2
  | .block body, r => by
    rw [made, Statement.evaluate]
    exact gains_evaluateAll 0 body r
  | .when condition body, r => by
    have tested := truth_run scope condition r
    rw [made, Statement.evaluate, run_bind_ok (run_lift tested), tested]
    cases condition.truthIn (r.look scope) with
    | true =>
      have inside := gains_evaluate body (r.noteReads (condition.reads (r.look scope)))
      exact (Gains.none scope rfl rfl).trans scope inside
    | false => exact .none scope rfl rfl
  | .expr e, r => by
    rw [Statement.evaluate]
    exact gains_expr scope e r

theorem gains_evaluateAll (i : Nat) : ∀ (body : List Statement) (r : Recorder),
    Gains scope ((madeByAll scope i body r).map Prod.snd) r
      ((evaluateAll (context scope) body).run.run r).2
  | [], r => .none scope rfl rfl
  | s :: body, r => by
    rw [madeByAll, evaluateAll, List.map_append, List.map_map]
    have first := gains_evaluate s r
    cases done : (s.evaluate (context scope)).run.run r with
    | mk outcome r' =>
      rw [done] at first
      cases outcome with
      | ok _ =>
        rw [run_bind_ok done]
        exact first.trans scope (gains_evaluateAll (i + 1) body r')
      | error f =>
        rw [run_bind_error done, List.map_nil, List.append_nil]
        exact first

end

end evaluation

/-- Two programs that differ in the bodies of their `Then` links alone come to the same outcome and
leave the same behind, but for what waits. Behind what waited already, the bodies of the chains wait
that were made, in the order they were made in, for the tweens that were made of them. In both
programs the chains made stand at the same places and are the same but for their bodies, so what
waits differs in the bodies alone. -/
theorem evaluate_of_hollow_eq {s s' : Statement} (same : s.hollow = s'.hollow) (scope : Scope)
    (r : Recorder) :
    let run := (s.evaluate (context scope)).run.run r
    let run' := (s'.evaluate (context scope)).run.run r
    let new := waits scope r.tweens.size ((made scope s r).map Prod.snd)
    let new' := waits scope r.tweens.size ((made scope s' r).map Prod.snd)
    run.1 = run'.1 ∧
    run'.2 = { run.2 with pending := run'.2.pending } ∧
    run.2.pending = r.pending ++ new ∧
    run'.2.pending = r.pending ++ new' ∧
    (made scope s r).map (Prod.map id Chain.hollow) =
      (made scope s' r).map (Prod.map id Chain.hollow) ∧
    new.map (Prod.map id Continuation.hollow) = new'.map (Prod.map id Continuation.hollow) := by
  intro run run' new new'
  obtain ⟨outcome, state⟩ := evaluate_hollow scope s (.refl r)
  obtain ⟨outcome', state'⟩ := evaluate_hollow scope s' (.refl r)
  rw [← same] at outcome' state'
  have chains : (made scope s r).map (Prod.map id Chain.hollow) =
      (made scope s' r).map (Prod.map id Chain.hollow) := by
    rw [← made_hollow scope s (.refl r), ← made_hollow scope s' (.refl r), same]
  have bodies : ((made scope s r).map Prod.snd).map Chain.hollow =
      ((made scope s' r).map Prod.snd).map Chain.hollow := by
    have second := congrArg (List.map Prod.snd) chains
    rw [List.map_map, List.map_map] at second ⊢
    exact second
  refine ⟨outcome.trans outcome'.symm, (state.trans state'.symm).eq, (gains_evaluate scope s r).1,
    (gains_evaluate scope s' r).1, chains, ?_⟩
  rw [← waits_hollow, ← waits_hollow, bodies]

/-- A body that ends in a fault in the place of one that does nothing, and a body where a chain is
only looked at for its value. -/
theorem evaluate_with_faulty_body :
    let program (body : Statement) : Statement :=
      .block [
        .when (.tween ⟨.alpha, "A", [], [.andThen body]⟩)
          (.expr (.tween ⟨.position .x, "X", [.variable "Title", .variable "time"],
            [.andThen body, .delay [.variable "time"], .andThen (.expr .callback)]⟩)),
        .expr .callback]
    let faulty : Statement := .expr (.setActive [.variable "Title"])
    let run (body : Statement) := ((program body).evaluate (context [])).run.run {}
    (program faulty).hollow = (program (.block [])).hollow ∧
    (run faulty).1 = (run (.block [])).1 ∧
    (run (.block [])).2 = { (run faulty).2 with pending := (run (.block [])).2.pending } ∧
    (run faulty).2.pending = [(0, ⟨faulty, []⟩), (0, ⟨.expr .callback, []⟩)] ∧
    (run (.block [])).2.pending = [(0, ⟨.block [], []⟩), (0, ⟨.expr .callback, []⟩)] := by
  intro program faulty run
  have same : (program faulty).hollow = (program (.block [])).hollow := rfl
  obtain ⟨outcome, state, waiting, waiting', -, -⟩ := evaluate_of_hollow_eq same [] {}
  exact ⟨same, outcome, state, waiting, waiting'⟩

end Recorder

end TweenScript
