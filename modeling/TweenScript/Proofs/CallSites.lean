import TweenScript.Proofs.Arity
import TweenScript.Proofs.Atomicity
import TweenScript.Proofs.ExpressionPrograms
import TweenScript.Proofs.Grammar.Names

/-!
# Call sites

The calls of a tree, from left to right, stand at places of their own in the tokens of the text, in the
same order. What stands there is a callee and arguments in parentheses (`CallSite`). A tween or an object
is switched only if the first argument is a name.
-/

namespace TweenScript

variable {σ ο τ : Type}

/-! ## Calls of a tree -/

mutual

/-- The calls in a statement, from left to right; a call comes before those in its arguments and links. -/
def Statement.calls : Statement → List Expr
  | .block body => callsOfAll body
  | .when condition body => condition.calls ++ body.calls
  | .expr e => e.calls

/-- The same in several statements. -/
def callsOfAll : List Statement → List Expr
  | [] => []
  | s :: body => s.calls ++ callsOfAll body

/-- The same in an expression. -/
def Expr.calls : Expr → List Expr
  | .number _ | .variable _ => []
  | .conditional c yes no => c.calls ++ (yes.calls ++ no.calls)
  | .unary _ e => e.calls
  | .binary _ l r => l.calls ++ r.calls
  | .tween chain => .tween chain :: chain.calls
  | .setActive args => .setActive args :: callsOfArguments args
  | .callback => [.callback]

/-- The same in several expressions. -/
def callsOfArguments : List Expr → List Expr
  | [] => []
  | e :: args => e.calls ++ callsOfArguments args

/-- The same in the arguments and links of a chain. -/
def Chain.calls : Chain → List Expr
  | ⟨_, _, args, links⟩ => callsOfArguments args ++ callsOfLinks links

/-- The same in several links. -/
def callsOfLinks : List Link → List Expr
  | [] => []
  | link :: links => link.calls ++ callsOfLinks links

/-- The same in a link. -/
def Link.calls : Link → List Expr
  | .start _ args | .delay args | .animate args | .ease _ args => callsOfArguments args
  | .andThen body => body.calls

end

/-- The calls in a tree of a category. -/
def Category.calls : (c : Category) → c.Tree → List Expr
  | .statement, s => s.calls
  | .statements, body => callsOfAll body
  | .expr, e | .operand _, e | .unary, e | .call, e | .primary, e => e.calls
  | .arguments, args | .items, args => callsOfArguments args
  | .links, ls => callsOfLinks ls
  | .link, l => l.calls

/-- The calls in what a text spells. -/
def ParseMode.calls : (m : ParseMode) → m.Tree → List Expr
  | .program, s => s.calls
  | .expression, e => e.calls

/-- The name and the arguments of a call. The arguments of a callback are not in the tree. -/
inductive Expr.Calls : Expr → String → List Expr → Prop where
  | tween (chain : Chain) : Calls (.tween chain) chain.name chain.args
  | setActive (args : List Expr) : Calls (.setActive args) "Active" args
  | callback (args : List Expr) : Calls .callback "Callback" args

/-- A call has the argument counts that are looked at before its object name. -/
def Expr.Counted : Expr → Prop
  | .tween chain => chain.FixedFit ∧ chain.CallFits
  | .setActive args => args.length = 2
  | _ => True

/-! ## Places of calls -/

/-- A call and its tokens without links: those of the callee and of each argument. -/
structure CallSite where
  /-- How many tokens stand before the call. -/
  place : Nat
  name : String
  callee : List Token
  arguments : List (List Token)
  node : Expr
  args : List Expr
  calls : node.Calls name args
  spelled : List.Forall₂ (Spells .expr) arguments args

namespace CallSite

/-- The tokens of the call: the parenthesis stands behind the callee. -/
def tokens (site : CallSite) : List Token :=
  site.callee ++ parenthesized (commaSeparated site.arguments)

/-- The call stands at its place in `ts`. -/
def StandsIn (site : CallSite) (ts : List Token) : Prop :=
  ∃ front back, ts = front ++ site.tokens ++ back ∧ front.length = site.place

/-- The call with `n` more tokens before it. -/
def shift (n : Nat) (site : CallSite) : CallSite :=
  { site with place := n + site.place }

variable {site : CallSite} {ts us : List Token}

theorem StandsIn.place_lt (h : site.StandsIn ts) : site.place < ts.length := by
  obtain ⟨front, back, rfl, place⟩ := h
  simp only [tokens, parenthesized, List.length_append, List.length_cons]
  omega

theorem StandsIn.append (h : site.StandsIn ts) (us : List Token) : site.StandsIn (ts ++ us) := by
  obtain ⟨front, back, rfl, place⟩ := h
  exact ⟨front, back ++ us, by simp only [List.append_assoc], place⟩

theorem StandsIn.shift (h : site.StandsIn ts) (us : List Token) :
    (site.shift us.length).StandsIn (us ++ ts) := by
  obtain ⟨front, back, rfl, place⟩ := h
  refine ⟨us ++ front, back, ?_, ?_⟩
  · rw [List.append_assoc, List.append_assoc, List.append_assoc]
    rfl
  · rw [List.length_append, place]
    rfl

end CallSite

/-- The calls `es` stand in `ts` one behind the other, each with a callee as `isCallee` has it. -/
def CallsStand (isCallee : String → List Token → Prop) (ts : List Token) (es : List Expr) : Prop :=
  ∃ sites : List CallSite, sites.map (·.node) = es ∧
    sites.Pairwise (fun site site' => site.place < site'.place) ∧
    ∀ site ∈ sites, isCallee site.name site.callee ∧ site.StandsIn ts

namespace CallsStand

variable {isCallee : String → List Token → Prop} {ts us vs : List Token} {es fs : List Expr}

theorem none : CallsStand isCallee ts [] :=
  ⟨[], rfl, .nil, fun _ h => nomatch h⟩

theorem append (h : CallsStand isCallee ts es) (h' : CallsStand isCallee us fs) :
    CallsStand isCallee (ts ++ us) (es ++ fs) := by
  obtain ⟨sites, rfl, ordered, stand⟩ := h
  obtain ⟨sites', rfl, ordered', stand'⟩ := h'
  refine ⟨sites ++ sites'.map (·.shift ts.length), ?_, ?_, ?_⟩
  · rw [List.map_append, List.map_map]
    rfl
  · refine List.pairwise_append.mpr ⟨ordered, ?_, ?_⟩
    · exact List.pairwise_map.mpr (ordered'.imp fun h => Nat.add_lt_add_left h _)
    · intro site mem shifted mem'
      obtain ⟨site', -, rfl⟩ := List.mem_map.mp mem'
      exact Nat.lt_of_lt_of_le (stand site mem).2.place_lt (Nat.le_add_right _ _)
  · intro site mem
    rcases List.mem_append.mp mem with mem | mem
    · exact ⟨(stand site mem).1, (stand site mem).2.append us⟩
    · obtain ⟨site', mem', rfl⟩ := List.mem_map.mp mem
      exact ⟨(stand' site' mem').1, (stand' site' mem').2.shift ts⟩

theorem behind (us : List Token) (h : CallsStand isCallee ts es) : CallsStand isCallee (us ++ ts) es :=
  none.append h

theorem before (us : List Token) (h : CallsStand isCallee ts es) : CallsStand isCallee (ts ++ us) es := by
  rw [← List.append_nil es]
  exact h.append none

theorem parenthesized (h : CallsStand isCallee ts es) : CallsStand isCallee (parenthesized ts) es :=
  (h.before [.symbol .rparen]).behind [.symbol .lparen]

theorem call {e : Expr} {name : String} {args : List Expr} {callee : List Token}
    (calls : e.Calls name args) (isCallee_callee : isCallee name callee) (some : 0 < callee.length)
    (spells : Spells .arguments us args)
    (h : CallsStand isCallee (TweenScript.parenthesized us ++ vs) es) :
    CallsStand isCallee (callee ++ TweenScript.parenthesized us ++ vs) (e :: es) := by
  obtain ⟨parts, rfl, spelled⟩ := spells.spellsApart
  obtain ⟨sites, rfl, ordered, stand⟩ := h
  let site : CallSite := ⟨0, name, callee, parts, e, args, calls, spelled⟩
  refine ⟨site :: sites.map (·.shift callee.length), ?_, ?_, ?_⟩
  · rw [List.map_cons, List.map_map]
    rfl
  · refine List.pairwise_cons.mpr ⟨?_, ?_⟩
    · intro shifted mem
      obtain ⟨site', -, rfl⟩ := List.mem_map.mp mem
      exact Nat.lt_of_lt_of_le some (Nat.le_add_right _ _)
    · exact List.pairwise_map.mpr (ordered.imp fun h => Nat.add_lt_add_left h _)
  · intro shifted mem
    rcases List.mem_cons.mp mem with rfl | mem
    · exact ⟨isCallee_callee, [], vs, rfl, rfl⟩
    · obtain ⟨site', mem', rfl⟩ := List.mem_map.mp mem
      refine ⟨(stand site' mem').1, ?_⟩
      rw [List.append_assoc]
      exact (stand site' mem').2.shift callee

theorem lone_call {e : Expr} {name : String} {args : List Expr} {callee : List Token}
    (calls : e.Calls name args) (isCallee_callee : isCallee name callee) (some : 0 < callee.length)
    (spells : Spells .arguments us args) (h : CallsStand isCallee (TweenScript.parenthesized us) es) :
    CallsStand isCallee (callee ++ TweenScript.parenthesized us) (e :: es) := by
  rw [← List.append_nil (callee ++ _)]
  exact call calls isCallee_callee some spells (h.before [])

end CallsStand

/-- The calls of a tree stand in the tokens that spell it. -/
theorem Spells.callsStand {c : Category} {ts : List Token} {v : c.Tree} (h : Spells c ts v) :
    CallsStand Callee ts (c.calls v) := by
  induction h with
  | block _ ih => exact (ih.before _).behind [_]
  | @when ts us condition body _ _ ihc ihb => exact (ihc.parenthesized.append ihb).behind [_]
  | exprStatement _ ih => exact ih.before _
  | noStatements => exact .none
  | moreStatements _ _ ihs ihb => exact ihs.append ihb
  | plain _ ih => exact ih
  | conditional _ _ _ ihc ihy ihn => exact ihc.append ((ihy.append (ihn.behind [_])).behind [_])
  | signed _ ih => exact ih
  | tighter _ ih => exact ih
  | binary _ _ _ ihl ihr => exact ihl.append (ihr.behind [_])
  | plus _ ih => exact ih.behind [_]
  | neg _ ih => exact ih.behind [_]
  | not _ ih => exact ih.behind [_]
  | unsigned _ ih => exact ih
  | noCall _ ih => exact ih
  | tween callee _ args _ _ iha ihl =>
    have callee := Spells.primary_variable_iff.mp callee
    exact .call (.tween _) callee callee.length_pos args (iha.parenthesized.append ihl)
  | setActive callee args _ iha =>
    have callee := Spells.primary_variable_iff.mp callee
    exact .lone_call (.setActive _) callee callee.length_pos args iha.parenthesized
  | callback callee args _ _ =>
    -- calls in the arguments of a callback are not in the tree
    have callee := Spells.primary_variable_iff.mp callee
    exact .lone_call (.callback _) callee callee.length_pos args .none
  | number _ => exact .none
  | name _ => exact .none
  | group _ ih => exact ih.parenthesized
  | noArguments => exact .none
  | someArguments _ ih => exact ih
  | oneItem _ ih =>
    show CallsStand Callee _ (_ ++ [])
    rw [List.append_nil]
    exact ih
  | moreItems _ _ ihe iha => exact ihe.append (iha.behind [_])
  | noLinks => exact .none
  | moreLinks _ _ ihl ihs => exact ihl.append ihs
  | namedLink make _ ih =>
    cases make <;> exact ih.parenthesized.behind [_, _]
  | andThen _ ih => exact ih.parenthesized.behind [_, _]

theorem SpellsProgram.callsStand {ts : List Token} {s : Statement} (h : SpellsProgram ts s) :
    CallsStand Callee ts s.calls := by
  cases h with
  | single h => exact h.callsStand
  | several h _ => exact h.callsStand

theorem ParseMode.callsStand {m : ParseMode} {text : String} {tree : m.Tree}
    (h : m.parse text = .ok tree) : ∃ ts, Scans text ts ∧ CallsStand Callee ts (m.calls tree) := by
  obtain ⟨ts, scans, read⟩ := parse_eq_ok_iff.mp h
  refine ⟨ts, scans, ?_⟩
  cases m with
  | program => exact (readProgram_eq_ok_iff.mp read).callsStand
  | expression => exact (readExpression_eq_ok_iff.mp read).callsStand

/-! ## Names of objects -/

section object

variable {e : Expr} {name : String} {args : List Expr}

theorem evaluate_tween_error {chain : Chain} {f : Fault} (h : chain.plan = .error f)
    (c : Context σ ο τ) (s : σ) : ((Expr.tween chain).evaluate c).run.run s = (.error f, s) := by
  have planned : (liftM chain.plan : Action σ Plan).run.run s = (.error f, s) := by
    rw [h]
    rfl
  have made : (chain.evaluate c).run.run s = (.error f, s) := run_bind_error planned
  show (do let _ ← chain.evaluate c; pure () : Action σ Unit).run.run s = _
  exact run_bind_error made

theorem evaluate_setActive_error {object flag : Expr} {f : Fault}
    (h : objectName "Active" object = .error f) (c : Context σ ο τ) (s : σ) :
    ((Expr.setActive [object, flag]).evaluate c).run.run s = (.error f, s) := by
  have named : (liftM (objectName "Active" object) : Action σ String).run.run s = (.error f, s) := by
    rw [h]
    rfl
  exact run_bind_error named

/-- The first argument of a call that has had its effect is a name. -/
theorem Expr.Calls.exists_object (calls : e.Calls name args) (acts : e ≠ .callback)
    (c : Context σ ο τ) {s s' : σ} (h : (e.evaluate c).run.run s = (.ok (), s')) :
    ∃ object rest, args = .variable object :: rest := by
  cases calls with
  | tween chain =>
    cases planned : chain.plan with
    | error f =>
      rw [evaluate_tween_error planned] at h
      cases h
    | ok p =>
      obtain ⟨call, -, called, -⟩ := plan_eq_ok_iff.mp planned
      obtain ⟨object, duration, values, -, args_eq, -⟩ := planCall_eq_ok_iff.mp called
      exact ⟨object, duration :: values, args_eq⟩
  | setActive args =>
    rcases args with _ | ⟨object, _ | ⟨flag, _ | ⟨more, args⟩⟩⟩
    · cases h
    · cases h
    · cases named : objectName "Active" object with
      | error f =>
        rw [evaluate_setActive_error named] at h
        cases h
      | ok object' => exact ⟨object', [flag], by rw [objectName_eq_ok_iff.mp named]⟩
    · cases h
  | callback args => exact absurd rfl acts

theorem Expr.Calls.evaluate_of_no_object (calls : e.Calls name args) (acts : e ≠ .callback)
    (counted : e.Counted) (other : ∀ object rest, args ≠ .variable object :: rest)
    (c : Context σ ο τ) (s : σ) :
    (e.evaluate c).run.run s = (.error (.argument (.noObjectName name)), s) := by
  cases calls with
  | tween chain =>
    obtain ⟨fixed, call⟩ := counted
    refine evaluate_tween_error (plan_eq_error_iff.mpr (.object fixed call ?_)) c s
    rintro ⟨object, first⟩
    obtain ⟨rest, args_eq⟩ := List.head?_eq_some_iff.mp first
    exact other object rest args_eq
  | setActive args =>
    obtain ⟨object, flag, rfl⟩ := List.length_eq_two.mp counted
    refine evaluate_setActive_error (objectName_eq_error_iff.mpr ⟨?_, rfl⟩) c s
    rintro object' rfl
    exact other object' [flag] rfl
  | callback args => exact absurd rfl acts

end object

namespace CallSite

variable {site : CallSite}

/-- The first argument of the call is a name, in parentheses or behind plus signs perhaps. -/
def NamesObject (site : CallSite) : Prop :=
  ∃ object first rest, site.arguments = first :: rest ∧ Names object first

theorem namesObject_iff :
    site.NamesObject ↔ ∃ object rest, site.args = .variable object :: rest := by
  have spelled := site.spelled
  constructor
  · rintro ⟨object, first, rest, arguments, names⟩
    rw [arguments] at spelled
    obtain ⟨e, args, spells, -, args_eq⟩ := List.forall₂_cons_left_iff.mp spelled
    have named := readExpression_eq_ok_iff.mpr (Spells.expr_variable_iff.mpr names)
    rw [readExpression_eq_ok_iff.mpr spells] at named
    cases named
    exact ⟨object, args, args_eq⟩
  · rintro ⟨object, rest, args⟩
    rw [args] at spelled
    obtain ⟨first, parts, spells, -, arguments⟩ := List.forall₂_cons_right_iff.mp spelled
    exact ⟨object, first, parts, arguments, Spells.expr_variable_iff.mp spells⟩

end CallSite

/-- Calls and objects go by names. In every text that parses, each call of the tree stands at a place of its
own, and its parenthesis stands right behind its name or the name in parentheses, in which plus signs may
stand too; what else is called is refused. Tweens and switches that have had an effect name their object in
this way, and where the counts are right they are refused if they do not. -/
theorem ParseMode.calls_named {m : ParseMode} {text : String} {tree : m.Tree}
    (parsed : m.parse text = .ok tree) :
    (∃ ts, Scans text ts ∧ CallsStand Callee ts (m.calls tree)) ∧
    (∀ {ts : List Token} {e : Expr} (rest : List Token), Spells .primary ts e →
      (∀ name, ¬ Callee name ts) →
      readCall (ts ++ .symbol .lparen :: rest) = .error ⟨.badCallee, .symbol .lparen :: rest⟩) ∧
    ∀ {σ ο τ : Type} (c : Context σ ο τ) (site : CallSite), site.node ≠ .callback →
      (∀ s s', (site.node.evaluate c).run.run s = (.ok (), s') → site.NamesObject) ∧
      (site.node.Counted → ¬ site.NamesObject → ∀ s,
        (site.node.evaluate c).run.run s = (.error (.argument (.noObjectName site.name)), s)) := by
  refine ⟨ParseMode.callsStand parsed, fun rest spells other => readCall_of_not_callee spells other,
    fun c site acts => ⟨fun s s' done => ?_, fun counted other s => ?_⟩⟩
  · exact CallSite.namesObject_iff.mpr (site.calls.exists_object acts c done)
  · refine site.calls.evaluate_of_no_object acts counted (fun object rest args => other ?_) c s
    exact CallSite.namesObject_iff.mpr ⟨object, rest, args⟩

/-- A tween whose name and whose object stand in parentheses. -/
theorem ParseMode.calls_named_in_parentheses :
    let chain : Chain := ⟨.position .x, "X", [.variable "a", .variable "t"], []⟩
    ParseMode.program.parse "(X)((a), t);" = .ok (.expr (.tween chain)) ∧
    (∃ ts, Scans "(X)((a), t);" ts ∧ CallsStand Callee ts [.tween chain]) ∧
    readCall [.number 1, .symbol .lparen] = .error ⟨.badCallee, [.symbol .lparen]⟩ ∧
    ∃ site : CallSite, site.node = .tween chain ∧
      site.arguments = [parenthesized [.identifier "a"], [.identifier "t"]] ∧ site.NamesObject := by
  intro chain
  have scans : Scans "(X)((a), t);" [.symbol .lparen, .identifier "X", .symbol .rparen, .symbol .lparen,
      .symbol .lparen, .identifier "a", .symbol .rparen, .symbol .comma, .identifier "t",
      .symbol .rparen, .symbol .semicolon] := by
    rw [Scans]
    decide +kernel
  have parsed : ParseMode.program.parse "(X)((a), t);" = .ok (.expr (.tween chain)) :=
    Parser.run_eq_ok_iff.mpr ⟨_, scans, by with_unfolding_all rfl⟩
  obtain ⟨stand, refused, named⟩ := ParseMode.calls_named parsed
  have spelled : List.Forall₂ (Spells .expr) [parenthesized [.identifier "a"], [.identifier "t"]]
      [.variable "a", .variable "t"] :=
    .cons (Spells.expr_variable_iff.mpr (.group .bare)) (.cons (Spells.expr_variable_iff.mpr .bare) .nil)
  let site : CallSite := ⟨0, "X", parenthesized [.identifier "X"], _, _, _, .tween chain, spelled⟩
  refine ⟨parsed, stand, refused [] (.number 1) (by rintro name ⟨⟩), site, rfl, rfl, ?_⟩
  exact (named (Recorder.context []) site (by rintro ⟨⟩)).1 {} _ rfl

/-- A name in parentheses is no bare name, but it does as a callee and as an object. -/
theorem ParseMode.exists_name_in_parentheses :
    (¬ ∀ tree, ParseMode.program.parse "(X)(a, t);" = .ok tree → ∃ ts, Scans "(X)(a, t);" ts ∧
      CallsStand (fun name callee => callee = [.identifier name]) ts (ParseMode.program.calls tree)) ∧
    ∃ (tree : Statement) (ts : List Token) (site : CallSite),
      ParseMode.program.parse "X((a), t);" = .ok tree ∧ Scans "X((a), t);" ts ∧ site.StandsIn ts ∧
      site.node ∈ tree.calls ∧
      ((site.node.evaluate (Recorder.context [])).run.run {}).1 = .ok () ∧
      ∀ name, site.arguments.head? ≠ some [.identifier name] := by
  let chain : Chain := ⟨.position .x, "X", [.variable "a", .variable "t"], []⟩
  constructor
  · have scans : Scans "(X)(a, t);" [.symbol .lparen, .identifier "X", .symbol .rparen, .symbol .lparen,
        .identifier "a", .symbol .comma, .identifier "t", .symbol .rparen, .symbol .semicolon] := by
      rw [Scans]
      decide +kernel
    intro bare
    obtain ⟨ts, scans', sites, nodes, -, stand⟩ := bare (.expr (.tween chain))
      (Parser.run_eq_ok_iff.mpr ⟨_, scans, by with_unfolding_all rfl⟩)
    obtain ⟨-, rfl⟩ := scans_iff.mp scans'
    rw [(scans_iff.mp scans).2] at stand
    obtain ⟨site, rest, rfl, node, -⟩ := List.map_eq_cons_iff.mp nodes
    obtain ⟨callee, front, back, tokens, -⟩ := stand site (List.mem_cons_self ..)
    have name_eq {name : String} {args : List Expr} : (Expr.tween chain).Calls name args → name = "X" := by
      rintro ⟨⟩
      rfl
    have name : site.name = "X" := name_eq (node ▸ site.calls)
    -- no parenthesis stands right behind the name
    have apart : ¬ [.identifier "X", .symbol .lparen] <:+: [Token.symbol .lparen, .identifier "X",
        .symbol .rparen, .symbol .lparen, .identifier "a", .symbol .comma, .identifier "t",
        .symbol .rparen, .symbol .semicolon] := by
      decide +kernel
    refine apart ⟨front, commaSeparated site.arguments ++ [.symbol .rparen] ++ back, ?_⟩
    rw [tokens, CallSite.tokens, callee, name]
    simp [parenthesized]
  · have scans : Scans "X((a), t);" [.identifier "X", .symbol .lparen, .symbol .lparen,
        .identifier "a", .symbol .rparen, .symbol .comma, .identifier "t", .symbol .rparen,
        .symbol .semicolon] := by
      rw [Scans]
      decide +kernel
    have spelled : List.Forall₂ (Spells .expr) [parenthesized [.identifier "a"], [.identifier "t"]]
        [.variable "a", .variable "t"] :=
      .cons (Spells.expr_variable_iff.mpr (.group .bare))
        (.cons (Spells.expr_variable_iff.mpr .bare) .nil)
    refine ⟨.expr (.tween chain), _, ⟨0, "X", [.identifier "X"], _, _, _, .tween chain, spelled⟩,
      Parser.run_eq_ok_iff.mpr ⟨_, scans, by with_unfolding_all rfl⟩, scans,
      ⟨[], [.symbol .semicolon], rfl, rfl⟩, List.mem_cons_self .., rfl, ?_⟩
    intro name h
    cases h

end TweenScript
