import TweenScript.Proofs.Renaming
import TweenScript.Proofs.Session.Matching

/-!
# Aliases as renaming

A name table in front of a host does to a program's objects what renaming them in the program does,
and goes on doing it in the continuations. Two sessions that differ in that alone, programs being
evaluated under the table in one and renamed in the other, cannot be told apart (`trace_renamed`):
what waits in them differs, and nothing else.
-/

namespace TweenScript

namespace NameTable

/-- The table without its names for objects. -/
def withoutPaths (t : NameTable) : NameTable :=
  { t with paths := [] }

/-- The second continuation is the first one, or the first one is in the scope of `t` and the second
one has the objects renamed instead. -/
inductive Renames (t : NameTable) : Continuation → Continuation → Prop where
  | same (k : Continuation) : t.Renames k k
  | renamed (body : Statement) (outer : Scope) :
    t.Renames ⟨body, t :: outer⟩ ⟨body.rename t.path, t.withoutPaths :: outer⟩

theorem path_withoutPaths (t : NameTable) (outer : Scope) (name : String) :
    Scope.path (t.withoutPaths :: outer) (t.path name) = Scope.path (t :: outer) name := by
  have left_alone (path : String) : t.withoutPaths.path path = path := rfl
  rw [Scope.path, Scope.path, List.foldl_cons, List.foldl_cons, left_alone]

/-- Continuations that wait for the same tween. -/
def RenamesWaiting (t : NameTable) (p q : Nat × Continuation) : Prop :=
  p.1 = q.1 ∧ t.Renames p.2 q.2

end NameTable

namespace Recorder

variable {t : NameTable}

/-- The second recorder is the first one, but for the continuations that wait: those are renamed. -/
def Renamed (t : NameTable) (r r' : Recorder) : Prop :=
  ∃ waiting, r' = { r with pending := waiting } ∧ List.Forall₂ t.RenamesWaiting r.pending waiting

theorem renamed_eq_matches (t : NameTable) : Renamed t = Matches t.Renames :=
  rfl

theorem Renamed.refl (t : NameTable) (r : Recorder) : r.Renamed t r :=
  Matches.refl .same r

/-! ## Evaluation -/

section evaluation

theorem renamed_simulates_self (t : NameTable) (scope : Scope) :
    Simulates (context scope) (context scope) (Renamed t) (· = ·)
      fun a b r r' => a = b ∧ r.Renamed t r' :=
  (respects_matches .same).simulates (.refl scope) fun _ => .same _

/-- A table in front of a host and the host with the objects renamed do the same. The bodies they
register are what differs. -/
theorem renamed_simulates (t : NameTable) (outer : Scope) :
    Simulates (context (t :: outer)) ((context (t.withoutPaths :: outer)).renaming t.path)
      (Renamed t) (· = ·) fun a b r r' => a = b ∧ r.Renamed t r' :=
  have self := renamed_simulates_self t (t :: outer)
  have read_eq (name : String) :
      ((context (t.withoutPaths :: outer)).renaming t.path).readVariable name =
        (context (t :: outer)).readVariable name :=
    renaming_readVariable t.path _ name
  have resolve_eq (name : String) :
      ((context (t.withoutPaths :: outer)).renaming t.path).resolveObject name =
        (context (t :: outer)).resolveObject name := by
    rw [renaming_resolveObject, Context.resolveObject, Context.resolveObject]
    exact congrArg host.resolveObject (t.path_withoutPaths outer name)
  { resolve := fun name => by
      rw [resolve_eq]
      exact self.resolve name
    read := fun name => by
      rw [read_eq]
      exact self.read name
    readFor := fun a b name => by
      rw [read_eq]
      exact self.readFor a b name
    setActive := self.setActive
    callback := self.callback
    create := self.create
    configure := by
      rintro a _ setting plain r r' ⟨rfl, h⟩
      cases setting with
      | andThen k => exact plain.elim
      | _ => exact ⟨rfl, Matches.configure h a (.plain plain)⟩
    register := by
      rintro a _ body r r' ⟨rfl, h⟩
      exact ⟨rfl, Matches.configure h a (.andThen (.renamed body outer))⟩
    release := self.release }

theorem evaluate_renamed (t : NameTable) (outer : Scope) (s : Statement) :
    Related (Renamed t) (s.evaluate (context (t :: outer))).run
      ((s.rename t.path).evaluate (context (t.withoutPaths :: outer))).run
      (Outcomes (Renamed t) fun _ _ => Renamed t) := by
  rw [evaluate_rename]
  exact (renamed_simulates t outer).statement s

end evaluation

/-! ## Completion -/

theorem resumeAlike_renames (t : NameTable) : ResumeAlike t.Renames := by
  intro k k' h
  rw [← renamed_eq_matches]
  cases h with
  | same k =>
    exact ((renamed_simulates_self t k.scope).statement k.body).mono fun _ _ _ _ h => h.alike_unit
  | renamed body outer =>
    exact (evaluate_renamed t outer body).mono fun _ _ _ _ h => h.alike_unit

/-! ## Sessions -/

/-- What waits in `r'` is what waits in `r` and, behind it, continuations in the scope given. -/
def Registers (scope : Scope) (r r' : Recorder) : Prop :=
  ∃ registered : List (Nat × Statement),
    r'.pending = r.pending ++ registered.map fun p => (p.1, ⟨p.2, scope⟩)

theorem maintains_registers (scope : Scope) (r : Recorder) :
    Maintains (context scope) (r.Registers scope) fun _ => r.Registers scope where
  resolve name r' h := by
    rw [resolveObject_run]
    exact h
  read _ _ h := h
  readFor _ _ _ h := h
  setActive _ _ _ h := h
  callback _ h := h
  create _ _ _ _ _ h := h
  configure id setting r' plain h := by
    cases setting with
    | andThen k => exact plain.elim
    | _ => exact h
  register id body r' h := by
    obtain ⟨registered, h⟩ := h
    refine ⟨registered ++ [(id, body)], ?_⟩
    show r'.pending ++ [(id, ⟨body, scope⟩)] = _
    rw [h, List.map_append, List.append_assoc]
    rfl
  release _ _ h := h

/-- What an evaluation registers waits in the scope of the evaluation. -/
theorem registers_evaluate (scope : Scope) (s : Statement) (r : Recorder) :
    r.Registers scope ((s.evaluate (context scope)).run.run r).2 :=
  (maintains_registers scope r).statement s ⟨[], (List.append_nil _).symm⟩

end Recorder

/-- A turn of a session in which programs are evaluated under a table: one of these programs, or
something else. -/
inductive Turn where
  | program (outer : Scope) (s : Statement)
  | other (op : Operation)

/-- The turn with the table in front of the host. -/
def Turn.layered (t : NameTable) : Turn → Operation
  | program outer s => .evaluate (t :: outer) s
  | other op => op

/-- The turn with the objects of the program renamed, and the rest of the table in front of the
host. -/
def Turn.renamed (t : NameTable) : Turn → Operation
  | program outer s => .evaluate (t.withoutPaths :: outer) (s.rename t.path)
  | other op => op

namespace Recorder

theorem turn_renamed (t : NameTable) (turn : Turn) :
    Related (Renamed t) ((turn.layered t).perform engine).run
      ((turn.renamed t).perform engine).run (Alike (Renamed t)) := by
  cases turn with
  | program outer s =>
    exact ((evaluate_renamed t outer s).action_done Answer.done).mono fun _ _ _ _ =>
      outcomes_alike_iff.mp
  | other op => exact (engine_agrees .same (resumeAlike_renames t)).perform op

/-- The same outcome, and the same state but for the continuations, which are renamed. -/
def RenamedStep (t : NameTable) (x y : Except Fault Answer × Recorder) : Prop :=
  x.1 = y.1 ∧ x.2.Renamed t y.2

theorem trace_turns (t : NameTable) (turns : List Turn) {r r' : Recorder} (h : r.Renamed t r') :
    List.Forall₂ (RenamedStep t) (engine.trace r (turns.map (Turn.layered t)))
      (engine.trace r' (turns.map (Turn.renamed t))) :=
  Engine.trace_map_related (turn_renamed t) turns h

end Recorder

/-- A session in which programs are evaluated under the table of an asset, and the session in which
their objects are renamed by its names and the rest of the table is all that is left of it: turn by
turn the outcomes are the same and so are the recorders, but for the continuations that wait, which
are renamed. What a program registers waits in the scope it was evaluated in, where an object is
looked for under the path that the asset has for its name, and a variable has the value of the
recorder at the time, or else that of the asset. -/
theorem trace_renamed (a : Asset) (turns : List Turn) (r : Recorder) :
    List.Forall₂ (Recorder.RenamedStep a.toNameTable)
      (Recorder.engine.trace r (turns.map (Turn.layered a.toNameTable)))
      (Recorder.engine.trace r (turns.map (Turn.renamed a.toNameTable))) ∧
    (∀ (s : Statement) (outer : Scope), ∃ registered : List (Nat × Statement),
      ((s.evaluate (Recorder.context (a.toNameTable :: outer))).run.run r).2.pending =
        r.pending ++ registered.map fun p => (p.1, ⟨p.2, a.toNameTable :: outer⟩)) ∧
    ∀ name : String,
      ((Recorder.context [a.toNameTable]).resolveObject name).run.run r = (r.resolve (a.path name), r) ∧
      ((Recorder.context [a.toNameTable]).readVariable name).run r =
        ((r.values[name]?).or (a.value? name), r.noteRead name) := by
  refine ⟨Recorder.trace_turns _ turns (.refl _ r), fun s outer => ?_, fun name => ⟨?_, rfl⟩⟩
  · exact Recorder.registers_evaluate _ s r
  · exact Recorder.resolveObject_run [a.toNameTable] name r

end TweenScript
