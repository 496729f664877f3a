import TweenScript.Evaluation

/-!
# Rewriting programs

A program hands two kinds of things to the host as they are: the names of objects, which are bare
names that are the first argument of a tween call or of `Active`, and the bodies of `Then` links.
Rewriting them in a program is the same as rewriting them on the way to the host
(`evaluate_rewrite`).
-/

namespace TweenScript

/-! ## Programs -/

/-- Arguments of a call on an object, with the object renamed if it is a bare name. -/
def renameObject (f : String → String) : List Expr → List Expr
  | .variable name :: args => .variable (f name) :: args
  | args => args

section programs

variable (f : String → String) (g : Statement → Statement)

mutual

/-- An expression with its objects renamed by `f` and the bodies of its `Then` links replaced by
`g`, wherever they stand outside of such a body. Variables are no objects. -/
def Expr.rewrite : Expr → Expr
  | .number value => .number value
  | .variable name => .variable name
  | .conditional c yes no => .conditional c.rewrite yes.rewrite no.rewrite
  | .unary op e => .unary op e.rewrite
  | .binary op l r => .binary op l.rewrite r.rewrite
  | .tween chain => .tween chain.rewrite
  | .setActive args => .setActive (renameObject f (rewriteArguments args))
  | .callback => .callback

/-- The same of several expressions. -/
def rewriteArguments : List Expr → List Expr
  | [] => []
  | e :: args => e.rewrite :: rewriteArguments args

/-- The same of a chain. -/
def Chain.rewrite : Chain → Chain
  | ⟨channel, name, args, links⟩ =>
    ⟨channel, name, renameObject f (rewriteArguments args), rewriteLinks links⟩

/-- The same of links. -/
def rewriteLinks : List Link → List Link
  | [] => []
  | link :: links => link.rewrite :: rewriteLinks links

/-- The same of a link. -/
def Link.rewrite : Link → Link
  | .start relative args => .start relative (rewriteArguments args)
  | .delay args => .delay (rewriteArguments args)
  | .animate args => .animate (rewriteArguments args)
  | .ease e args => .ease e (rewriteArguments args)
  | .andThen body => .andThen (g body)

end

mutual

/-- The same of a statement. -/
def Statement.rewrite : Statement → Statement
  | .block body => .block (rewriteAll body)
  | .when condition body => .when (condition.rewrite f g) body.rewrite
  | .expr e => .expr (e.rewrite f g)

/-- The same of several statements. -/
def rewriteAll : List Statement → List Statement
  | [] => []
  | s :: body => s.rewrite :: rewriteAll body

end

end programs

variable (f : String → String) (g : Statement → Statement)

theorem rewriteArguments_eq_map (args : List Expr) :
    rewriteArguments f g args = args.map (Expr.rewrite f g) := by
  induction args with
  | nil => rfl
  | cons e args ih => rw [rewriteArguments, ih, List.map_cons]

theorem rewriteLinks_eq_map (links : List Link) :
    rewriteLinks f g links = links.map (Link.rewrite f g) := by
  induction links with
  | nil => rfl
  | cons link links ih => rw [rewriteLinks, ih, List.map_cons]

/-! ## Views -/

section views

variable {m : Type → Type} [Monad m] (read : String → m (Option Float))

mutual

theorem asNumber_rewrite : ∀ e : Expr, (e.rewrite f g).asNumber read = e.asNumber read
  | .number _ => rfl
  | .variable _ => rfl
  | .conditional c yes no => by
    simp only [Expr.rewrite, Expr.asNumber, asTruth_rewrite c, asNumber_rewrite yes,
      asNumber_rewrite no]
  | .unary .neg e => by simp only [Expr.rewrite, Expr.asNumber, asNumber_rewrite e]
  | .unary .not e => by simp only [Expr.rewrite, Expr.asNumber, asTruth_rewrite e]
  | .binary (.arithmetic _) l r => by
    simp only [Expr.rewrite, Expr.asNumber, asNumber_rewrite l, asNumber_rewrite r]
  | .binary (.comparison _) l r => by
    simp only [Expr.rewrite, Expr.asNumber, asNumber_rewrite l, asNumber_rewrite r]
  | .binary (.logical .or) l r => by
    simp only [Expr.rewrite, Expr.asNumber, asTruth_rewrite l, asTruth_rewrite r]
  | .binary (.logical .and) l r => by
    simp only [Expr.rewrite, Expr.asNumber, asTruth_rewrite l, asTruth_rewrite r]
  | .tween _ => rfl
  | .setActive _ => rfl
  | .callback => rfl

theorem asTruth_rewrite : ∀ e : Expr, (e.rewrite f g).asTruth read = e.asTruth read
  | .number _ => rfl
  | .variable _ => rfl
  | .conditional c yes no => by
    simp only [Expr.rewrite, Expr.asTruth, asTruth_rewrite c, asNumber_rewrite yes,
      asNumber_rewrite no]
  | .unary .neg e => by simp only [Expr.rewrite, Expr.asTruth, asNumber_rewrite e]
  | .unary .not e => by simp only [Expr.rewrite, Expr.asTruth, asTruth_rewrite e]
  | .binary (.arithmetic _) l r => by
    simp only [Expr.rewrite, Expr.asTruth, asNumber_rewrite l, asNumber_rewrite r]
  | .binary (.comparison _) l r => by
    simp only [Expr.rewrite, Expr.asTruth, asNumber_rewrite l, asNumber_rewrite r]
  | .binary (.logical .or) l r => by
    simp only [Expr.rewrite, Expr.asTruth, asTruth_rewrite l, asTruth_rewrite r]
  | .binary (.logical .and) l r => by
    simp only [Expr.rewrite, Expr.asTruth, asTruth_rewrite l, asTruth_rewrite r]
  | .tween _ => rfl
  | .setActive _ => rfl
  | .callback => rfl

end

end views

/-! ## Plans -/

/-- The same of values. -/
def Values.rewrite : Values → Values
  | same e => same (e.rewrite f g)
  | each es => each (es.map (Expr.rewrite f g))

/-- The same of a step. -/
def Step.rewrite : Step → Step
  | start relative vs => start relative (vs.rewrite f g)
  | delay e => delay (e.rewrite f g)
  | animate e => animate (e.rewrite f g)
  | ease e => ease e
  | andThen body => andThen (g body)

/-- The same of a plan. -/
def Plan.rewrite (p : Plan) : Plan where
  channel := p.channel
  object := f p.object
  duration := p.duration.rewrite f g
  target := p.target.map (Values.rewrite f g)
  steps := p.steps.map (Step.rewrite f g)

theorem ofList?_rewrite (w : Nat) (args : List Expr) :
    Values.ofList? w (args.map (Expr.rewrite f g)) =
      (Values.ofList? w args).map (Values.rewrite f g) := by
  match args with
  | [] => simp only [Values.ofList?, List.map_nil]; split <;> rfl
  | [e] => rfl
  | e :: e' :: args =>
    simp only [Values.ofList?, List.map_cons, List.length_cons, List.length_map]
    split <;> rfl

theorem onlyArgument_rewrite (link : String) (args : List Expr) :
    onlyArgument link (args.map (Expr.rewrite f g)) =
      (onlyArgument link args).map (Expr.rewrite f g) := by
  match args with
  | [] => rfl
  | [e] => rfl
  | e :: e' :: args => simp [onlyArgument, Except.map]

theorem startValues_rewrite (w : Nat) (relative : Bool) (args : List Expr) :
    startValues w relative (args.map (Expr.rewrite f g)) =
      (startValues w relative args).map (Values.rewrite f g) := by
  rw [startValues, startValues, ofList?_rewrite, List.length_map]
  cases Values.ofList? w args <;> rfl

theorem noArguments_rewrite (link : String) (args : List Expr) :
    noArguments link (args.map (Expr.rewrite f g)) = noArguments link args := by
  cases args with
  | nil => rfl
  | cons e args => simp [noArguments]

theorem step_rewrite (w : Nat) (link : Link) :
    (link.rewrite f g).step w = (link.step w).map (Step.rewrite f g) := by
  cases link with
  | start relative args =>
    simp only [Link.rewrite, Link.step, rewriteArguments_eq_map, startValues_rewrite]
    cases startValues w relative args <;> rfl
  | delay args =>
    simp only [Link.rewrite, Link.step, rewriteArguments_eq_map, onlyArgument_rewrite]
    cases onlyArgument "Delay" args <;> rfl
  | animate args =>
    simp only [Link.rewrite, Link.step, rewriteArguments_eq_map, onlyArgument_rewrite]
    cases onlyArgument "Animate" args <;> rfl
  | ease e args =>
    simp only [Link.rewrite, Link.step, rewriteArguments_eq_map, noArguments_rewrite]
    cases noArguments e.name args <;> rfl
  | andThen body => rfl

theorem steps_rewrite (w : Nat) (links : List Link) :
    (links.map (Link.rewrite f g)).mapM (Link.step w) =
      (links.mapM (Link.step w)).map (List.map (Step.rewrite f g)) := by
  induction links with
  | nil => rfl
  | cons link links ih =>
    rw [List.map_cons, List.mapM_cons, List.mapM_cons, step_rewrite, ih]
    cases link.step w with
    | error fault => rfl
    | ok step => cases links.mapM (Link.step w) <;> rfl

theorem objectName_rewrite (call : String) (e : Expr) (args : List Expr) :
    ∃ e', renameObject f (e.rewrite f g :: args) = e' :: args ∧
      objectName call e' = (objectName call e).map f := by
  cases e <;> exact ⟨_, rfl, rfl⟩

theorem planCall_rewrite (chain : Chain) :
    (chain.rewrite f g).planCall = chain.planCall.map (Plan.rewrite f g) := by
  obtain ⟨channel, name, args, links⟩ := chain
  simp only [Chain.rewrite, rewriteArguments_eq_map]
  match args with
  | [] => rfl
  | [object] =>
    obtain ⟨object', object_eq, -⟩ := objectName_rewrite f g name object []
    simp only [Chain.planCall, List.map_cons, List.map_nil, object_eq]
    rfl
  | object :: duration :: values =>
    obtain ⟨object', object_eq, name_eq⟩ :=
      objectName_rewrite f g name object ((duration :: values).map (Expr.rewrite f g))
    simp only [Chain.planCall, List.map_cons] at object_eq ⊢
    simp only [object_eq, List.length_cons, List.length_map, List.isEmpty_map, ofList?_rewrite,
      name_eq]
    cases values.isEmpty with
    | true => cases objectName name object <;> rfl
    | false =>
      cases Values.ofList? channel.width values with
      | none => rfl
      | some target => cases objectName name object <;> rfl

theorem checkBehind_rewrite (chain : Chain) (before : List Link) :
    (chain.rewrite f g).checkBehind (before.map (Link.rewrite f g)) = chain.checkBehind before := by
  induction before with
  | nil =>
    rw [List.map_nil, Chain.checkBehind, Chain.checkBehind, planCall_rewrite]
    cases chain.planCall <;> rfl
  | cons link before ih =>
    cases link with
    | start relative args =>
      simp only [List.map_cons, Link.rewrite, Chain.checkBehind, rewriteArguments_eq_map,
        startValues_rewrite, ih]
      cases chain.checkBehind before with
      | error fault => rfl
      | ok channel =>
        simp only [bind, Except.bind]
        cases startValues channel.width relative args <;> rfl
    | delay args =>
      simp only [List.map_cons, Link.rewrite, Chain.checkBehind, rewriteArguments_eq_map,
        onlyArgument_rewrite, ih]
      cases onlyArgument "Delay" args <;> rfl
    | animate args =>
      simp only [List.map_cons, Link.rewrite, Chain.checkBehind, rewriteArguments_eq_map,
        onlyArgument_rewrite, ih]
      cases onlyArgument "Animate" args <;> rfl
    | ease e args =>
      simp only [List.map_cons, Link.rewrite, Chain.checkBehind, rewriteArguments_eq_map,
        noArguments_rewrite, ih]
    | andThen body =>
      simp only [List.map_cons, Link.rewrite, Chain.checkBehind, ih]

theorem plan_rewrite (chain : Chain) :
    (chain.rewrite f g).plan = chain.plan.map (Plan.rewrite f g) := by
  have links_eq : (chain.rewrite f g).links = chain.links.map (Link.rewrite f g) := by
    cases chain
    exact rewriteLinks_eq_map f g _
  have check_eq : (chain.rewrite f g).check = chain.check := by
    rw [Chain.check, Chain.check, links_eq, ← List.map_reverse, checkBehind_rewrite]
  rw [Chain.plan, Chain.plan, links_eq, check_eq, planCall_rewrite]
  cases chain.check with
  | error fault => rfl
  | ok channel =>
    cases chain.planCall with
    | error fault => rfl
    | ok call =>
      simp only [bind, Except.bind, steps_rewrite]
      cases chain.links.mapM (Link.step channel.width) <;> rfl

/-! ## Contexts -/

section contexts

variable {σ ο τ : Type}

/-- A context with a rewriting in front of it: names are rewritten on their way to it, and bodies
when they are registered, in its scope. -/
def Context.rewriting (c : Context σ ο τ) : Context σ ο τ where
  host :=
    { c.host with
      resolveObject := fun name => c.resolveObject (f name)
      readVariable := c.readVariable
      configure := fun t setting =>
        match setting with
        | .andThen k => c.host.configure t (.andThen ⟨g k.body, c.scope⟩)
        | _ => c.host.configure t setting }
  scope := []

variable (c : Context σ ο τ)

theorem rewriting_resolveObject (name : String) :
    (c.rewriting f g).resolveObject name = c.resolveObject (f name) :=
  rfl

theorem rewriting_readVariable (name : String) :
    (c.rewriting f g).readVariable name = c.readVariable name := by
  show (do let v ← c.readVariable name; return v.or none) = c.readVariable name
  simp only [Option.or_none, bind_pure]

theorem number_rewrite (e : Expr) : c.number (e.rewrite f g) = (c.rewriting f g).number e := by
  rw [Context.number, Context.number, asNumber_rewrite, funext (rewriting_readVariable f g c)]

theorem truth_rewrite (e : Expr) : c.truth (e.rewrite f g) = (c.rewriting f g).truth e := by
  rw [Context.truth, Context.truth, asTruth_rewrite, funext (rewriting_readVariable f g c)]

theorem values_rewrite (w : Nat) (vs : Values) :
    c.values w (vs.rewrite f g) = (c.rewriting f g).values w vs := by
  cases vs with
  | same e => rw [Values.rewrite, Context.values, Context.values, number_rewrite]
  | each es =>
    rw [Values.rewrite, Context.values, Context.values, List.mapM_map]
    exact congrArg (fun number => es.mapM number) (funext (number_rewrite f g c))

theorem target_rewrite (w : Nat) (o : Option Values) :
    c.target w (o.map (Values.rewrite f g)) = (c.rewriting f g).target w o := by
  cases o with
  | none => rfl
  | some vs =>
    rw [Option.map_some, Context.target, Context.target, values_rewrite]

theorem tell_rewrite (w : Nat) (t : τ) (step : Step) :
    (do c.host.configure t (← c.setting w (step.rewrite f g))) =
      (do (c.rewriting f g).host.configure t (← (c.rewriting f g).setting w step)) := by
  cases step with
  | start relative vs =>
    simp only [Step.rewrite, Context.setting, values_rewrite, bind_assoc, pure_bind]
    rfl
  | delay e =>
    simp only [Step.rewrite, Context.setting, number_rewrite, bind_assoc, pure_bind]
    rfl
  | animate e =>
    simp only [Step.rewrite, Context.setting, truth_rewrite, bind_assoc, pure_bind]
    rfl
  | ease e => rfl
  | andThen body => rfl

theorem configure_rewrite (w : Nat) (t : τ) (steps : List Step) :
    c.configure w t (steps.map (Step.rewrite f g)) = (c.rewriting f g).configure w t steps := by
  induction steps with
  | nil => rfl
  | cons step steps ih =>
    have first := tell_rewrite f g c w t step
    rw [List.map_cons, Context.configure, Context.configure, ih, ← bind_assoc, ← bind_assoc, first]

theorem make_rewrite (p : Plan) : c.make (p.rewrite f g) = (c.rewriting f g).make p := by
  simp only [Context.make, Plan.rewrite, rewriting_resolveObject, number_rewrite, target_rewrite,
    configure_rewrite]
  rfl

theorem liftM_map_bind {α β γ : Type} (g : α → β) (x : Except Fault α) (next : β → Action σ γ) :
    ((liftM (x.map g) : Action σ β) >>= next) = (liftM x : Action σ α) >>= fun a => next (g a) := by
  cases x <;> rfl

theorem chain_rewrite (chain : Chain) :
    (chain.rewrite f g).evaluate c = chain.evaluate (c.rewriting f g) := by
  rw [Chain.evaluate, Chain.evaluate, plan_rewrite, liftM_map_bind]
  simp only [make_rewrite]

theorem setActive_rewrite (args : List Expr) :
    evaluateSetActive c (renameObject f (args.map (Expr.rewrite f g))) =
      evaluateSetActive (c.rewriting f g) args := by
  match args with
  | [] => rfl
  | [object] =>
    obtain ⟨object', object_eq, -⟩ := objectName_rewrite f g "Active" object []
    rw [List.map_cons, List.map_nil, object_eq]
    rfl
  | [object, flag] =>
    obtain ⟨object', object_eq, name_eq⟩ :=
      objectName_rewrite f g "Active" object [flag.rewrite f g]
    rw [List.map_cons, List.map_cons, List.map_nil, object_eq, evaluateSetActive,
      evaluateSetActive, name_eq, truth_rewrite, liftM_map_bind]
    rfl
  | object :: flag :: e :: args =>
    obtain ⟨object', object_eq, -⟩ :=
      objectName_rewrite f g "Active" object ((flag :: e :: args).map (Expr.rewrite f g))
    rw [List.map_cons, object_eq]
    simp [evaluateSetActive]

theorem expr_rewrite (e : Expr) : (e.rewrite f g).evaluate c = e.evaluate (c.rewriting f g) := by
  cases e with
  | tween chain => rw [Expr.rewrite, Expr.evaluate, Expr.evaluate, chain_rewrite]
  | setActive args =>
    rw [Expr.rewrite, Expr.evaluate, Expr.evaluate, rewriteArguments_eq_map, setActive_rewrite]
  | callback => rfl
  | _ => exact congrArg (fun x => discard (liftM x)) (number_rewrite f g c _)

mutual

/-- A rewritten program is evaluated as the program is behind the rewriting. -/
theorem evaluate_rewrite : ∀ s : Statement,
    (s.rewrite f g).evaluate c = s.evaluate (c.rewriting f g)
  | .block body => by
    rw [Statement.rewrite, Statement.evaluate, Statement.evaluate, evaluateAll_rewrite body]
  | .when condition body => by
    rw [Statement.rewrite, Statement.evaluate, Statement.evaluate, truth_rewrite,
      evaluate_rewrite body]
  | .expr e => by
    rw [Statement.rewrite, Statement.evaluate, Statement.evaluate, expr_rewrite]

theorem evaluateAll_rewrite : ∀ body : List Statement,
    evaluateAll c (rewriteAll f g body) = evaluateAll (c.rewriting f g) body
  | [] => rfl
  | s :: body => by
    rw [rewriteAll, evaluateAll, evaluateAll, evaluate_rewrite s, evaluateAll_rewrite body]

end

end contexts

end TweenScript
