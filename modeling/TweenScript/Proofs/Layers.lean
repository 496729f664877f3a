import TweenScript.Proofs.Session.Aliases

/-!
# Layers

A name table in front of another one does what a single table does, in which the paths of the first
are looked up in the second, and the variables of the second come first (`NameTable.onto`). Nothing
can tell the two tables from the one: no host, no continuation that is resumed later and no session of
a recorder (`layers_collapse`).
-/

namespace TweenScript

/-! ## Tables in front of tables -/

theorem lookup_map_snd {α β : Type} (f : α → β) (entries : List (String × α)) (name : String) :
    (entries.map fun e => (e.1, f e.2)).lookup name = (entries.lookup name).map f := by
  induction entries with
  | nil => rfl
  | cons e entries ih =>
    rw [List.map_cons, List.lookup_cons, List.lookup_cons, ih]
    cases name == e.1 <;> rfl

namespace NameTable

/-- What `t` does in front of `outer`, as a single table. -/
def onto (t outer : NameTable) : NameTable where
  paths := t.paths.map (fun e => (e.1, outer.path e.2)) ++ outer.paths
  values := outer.values ++ t.values

variable (t outer : NameTable)

theorem path_onto (name : String) : (t.onto outer).path name = outer.path (t.path name) := by
  have path_eq : t.path name = (t.paths.lookup name).getD name := rfl
  rw [path, onto, List.lookup_append, lookup_map_snd, path_eq]
  cases t.paths.lookup name with
  | some path => rfl
  | none => rfl

theorem value?_onto (name : String) :
    (t.onto outer).value? name = (outer.value? name).or (t.value? name) :=
  List.lookup_append

theorem onto_assoc (third : NameTable) :
    (t.onto outer).onto third = t.onto (outer.onto third) := by
  have paths_eq : ((t.onto outer).onto third).paths = (t.onto (outer.onto third)).paths := by
    -- The paths of `t` go through `outer` and then through `third` on both sides.
    simp only [onto, List.map_append, List.map_map, List.append_assoc, Function.comp_def]
    simp only [← path_onto, onto]
  have values_eq : ((t.onto outer).onto third).values = (t.onto (outer.onto third)).values :=
    (List.append_assoc third.values outer.values t.values).symm
  rw [onto, onto, NameTable.mk.injEq]
  exact ⟨paths_eq, values_eq⟩

theorem onto_empty : t.onto {} = t := by
  have left_alone (path : String) : ({} : NameTable).path path = path := rfl
  simp only [onto, left_alone, List.map_id', List.append_nil, List.nil_append]

theorem empty_onto : ({} : NameTable).onto t = t := by
  simp only [onto, List.map_nil, List.nil_append, List.append_nil]

theorem agrees_onto (s : Scope) : Scope.Agrees (t :: outer :: s) (t.onto outer :: s) where
  path name := by
    show s.path (outer.path (t.path name)) = s.path ((t.onto outer).path name)
    rw [path_onto]
  value name := by
    rw [Scope.value?, Scope.value?, Scope.value?, value?_onto, Option.or_assoc]

end NameTable

/-! ## Hosts that are handed a scope -/

section handed

variable {σ ο τ : Type}

/-- The host, handed continuations in the scope given and not in their own. -/
def Host.handed (h : Host σ ο τ) (scope : Scope) : Host σ ο τ :=
  { h with
    configure := fun tween setting =>
      match setting with
      | .andThen k => h.configure tween (.andThen ⟨k.body, scope⟩)
      | _ => h.configure tween setting }

variable {h : Host σ ο τ} {scope scope' : Scope}

theorem handed_simulates (agree : scope.Agrees scope') :
    Simulates ⟨h, scope⟩ ⟨h.handed scope, scope'⟩ (· = ·) (· = ·)
      fun a b s s' => a = b ∧ s = s' where
  resolve name := by
    rintro s _ rfl
    rw [Context.resolveObject, Context.resolveObject, agree.path]
    exact outcomes_alike_iff.mpr ⟨rfl, rfl⟩
  read name := by
    rintro s _ rfl
    rw [Context.readVariable, Context.readVariable, agree.value]
    exact ⟨rfl, rfl⟩
  readFor a _ name := by
    rintro s _ ⟨rfl, rfl⟩
    rw [Context.readVariable, Context.readVariable, agree.value]
    exact ⟨rfl, rfl, rfl⟩
  setActive object _ active := by
    rintro rfl s _ rfl
    rfl
  callback := by
    rintro s _ rfl
    rfl
  create object _ channel duration target := by
    rintro rfl s _ rfl
    exact outcomes_alike_iff.mpr ⟨rfl, rfl⟩
  configure a _ setting plain := by
    rintro s _ ⟨rfl, rfl⟩
    cases setting with
    | andThen k => exact plain.elim
    | _ => exact ⟨rfl, rfl⟩
  register a _ body := by
    rintro s _ ⟨rfl, rfl⟩
    exact ⟨rfl, rfl⟩
  release a _ s _ same := same.2

/-- In scopes that agree a statement does the same to a host that is handed its continuations in one
scope. -/
theorem evaluate_handed (h : Host σ ο τ) (agree : scope.Agrees scope') (body : Statement) :
    body.evaluate ⟨h, scope⟩ = body.evaluate ⟨h.handed scope, scope'⟩ := by
  apply ExceptT.ext
  apply StateT.ext
  intro s
  obtain ⟨answer, state⟩ := ((handed_simulates agree).statement body s s rfl).alike_unit
  exact Prod.ext answer state

end handed

/-! ## Layers in sessions -/

/-- The turn with one more table around its program. -/
def Turn.within (t : NameTable) : Turn → Turn
  | program outer s => program (t :: outer) s
  | other op => other op

namespace Recorder

theorem turn_layers (t outer : NameTable) (turn : Turn) :
    Related (Matches Continuation.Agrees) (((turn.within outer).layered t).perform engine).run
      ((turn.layered (t.onto outer)).perform engine).run (Alike (Matches Continuation.Agrees)) := by
  cases turn with
  | program scope s =>
    have same := agrees_simulates (t.agrees_onto outer scope)
    exact ((same.statement s).action_done Answer.done).mono fun _ _ _ _ => outcomes_alike_iff.mp
  | other op => exact (engine_agrees .refl resumeAlike_agrees).perform op

theorem trace_layers (t outer : NameTable) (turns : List Turn) (r : Recorder) :
    List.Forall₂ (SameStep (Matches Continuation.Agrees))
      (engine.trace r (turns.map fun turn => (turn.within outer).layered t))
      (engine.trace r (turns.map (Turn.layered (t.onto outer)))) :=
  Engine.trace_map_related (turn_layers t outer) turns (Matches.refl .refl r)

end Recorder

/-- The table `t` in front of the table `outer` does what the single table `t.onto outer` does. On any
host a program does the same under the two tables and under the one, if the host is handed its
continuations in the same scope. A host that does not look into the scopes of continuations need not
be: it cannot tell the two from the one, but gives the same answers and is asked for the same, call
by call, by a program and by a continuation that is resumed later. In sessions of a recorder, programs
being evaluated under the tables and anything else being done in between, turn by turn the outcomes
are the same and so are the recorders, but for the scopes of what waits, which agree. It does not
matter in which order three tables are made one, and an empty table adds nothing. -/
theorem layers_collapse {σ ο τ : Type} (t outer : NameTable) (c : Context σ ο τ) :
    (∀ s : Statement, s.evaluate ((c.within outer).within t) =
      s.evaluate ⟨c.host.handed (t :: outer :: c.scope), t.onto outer :: c.scope⟩) ∧
    (∀ S : σ → σ → Prop, c.host.Respects Continuation.Agrees S →
      (∀ s : Statement,
        Related S (s.evaluate ((c.within outer).within t)).run
          (s.evaluate (c.within (t.onto outer))).run (Alike S) ∧
        Related (Noted.Relates Continuation.Agrees S)
          (s.evaluate ((c.noting.within outer).within t)).run
          (s.evaluate (c.noting.within (t.onto outer))).run
          (Alike (Noted.Relates Continuation.Agrees S))) ∧
      ∀ k k' : Continuation, k.Agrees k' →
        Related S (k.resume c.host).run (k'.resume c.host).run (Alike S) ∧
        Related (Noted.Relates Continuation.Agrees S) (k.resume c.host.noting).run
          (k'.resume c.host.noting).run (Alike (Noted.Relates Continuation.Agrees S))) ∧
    (∀ (turns : List Turn) (r : Recorder),
      List.Forall₂ (SameStep (Recorder.Matches Continuation.Agrees))
        (Recorder.engine.trace r (turns.map fun turn => (turn.within outer).layered t))
        (Recorder.engine.trace r (turns.map (Turn.layered (t.onto outer))))) ∧
    (∀ third : NameTable, (t.onto outer).onto third = t.onto (outer.onto third)) ∧
    t.onto {} = t ∧ ({} : NameTable).onto t = t := by
  have agree := t.agrees_onto outer c.scope
  refine ⟨fun s => evaluate_handed c.host agree s, fun S respects => ⟨fun s => ?_, ?_⟩,
    Recorder.trace_layers t outer, t.onto_assoc outer, t.onto_empty, t.empty_onto⟩
  · exact ⟨respects.statement agree s, respects.noting.statement agree s⟩
  · intro k k' same
    exact ⟨respects.resume same, respects.noting.resume same⟩

/-- A name with two paths, of which the first one is a name again, and a variable with two values. -/
theorem layers_collapse_chained_names :
    let t : NameTable := ⟨[("Title", "Panel"), ("Title", "Icon")], [("speed", 0.5)]⟩
    let outer : NameTable := ⟨[("Panel", "Canvas/Panel")], [("speed", 2)]⟩
    let c := Recorder.context []
    let body := Statement.expr (.tween ⟨.alpha, "A", [.variable "Title", .variable "speed"], []⟩)
    t.onto outer = ⟨[("Title", "Canvas/Panel"), ("Title", "Icon"), ("Panel", "Canvas/Panel")],
      [("speed", 2), ("speed", 0.5)]⟩ ∧
    c.host.Respects Continuation.Agrees (Recorder.Matches Continuation.Agrees) ∧
    Continuation.Agrees ⟨body, [t, outer]⟩ ⟨body, [t.onto outer]⟩ ∧
    Related (Recorder.Matches Continuation.Agrees) (body.evaluate ((c.within outer).within t)).run
      (body.evaluate (c.within (t.onto outer))).run (Alike (Recorder.Matches Continuation.Agrees)) ∧
    Related (Recorder.Matches Continuation.Agrees)
      (Continuation.resume c.host ⟨body, [t, outer]⟩).run
      (Continuation.resume c.host ⟨body, [t.onto outer]⟩).run
      (Alike (Recorder.Matches Continuation.Agrees)) := by
  intro t outer c body
  have respects : c.host.Respects Continuation.Agrees (Recorder.Matches Continuation.Agrees) :=
    Recorder.respects_matches .refl
  have agree : Continuation.Agrees ⟨body, [t, outer]⟩ ⟨body, [t.onto outer]⟩ :=
    ⟨rfl, t.agrees_onto outer []⟩
  obtain ⟨now, later⟩ := (layers_collapse t outer c).2.1 _ respects
  exact ⟨rfl, respects, agree, (now body).1, (later _ _ agree).1⟩

end TweenScript
