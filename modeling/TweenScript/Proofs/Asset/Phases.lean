import TweenScript.Proofs.Asset.Checks
import TweenScript.Proofs.Atomicity
import TweenScript.Proofs.Scanning
import TweenScript.Proofs.Session

/-!
# The phases of running an asset

An asset is checked, then parsed, then evaluated, and each phase has faults of its own: the fault that
a run ends in tells how far it came. Before the last phase nothing has been done to the recorder
(`run_phases`).
-/

namespace TweenScript

/-- The phases of running an asset. -/
inductive Phase where
  | checking
  | parsing
  | evaluating
  deriving DecidableEq

/-- The phase that a fault belongs to. -/
def Fault.phase? : Fault → Option Phase
  | asset _ => some .checking
  | lexical _ _ | grammar _ _ => some .parsing
  | arity _ _ _ | argument _ | resolution _ => some .evaluating
  | other _ => none

/-! ## Parsing -/

theorem Scanner.phase_of_next {s s' : Scanner} {f : Fault} (h : s.next = (.fault f, s')) :
    f.phase? = some .parsing := by
  simp only [next] at h
  split at h
  · cases h
  · split at h
    · cases h
    · cases h
      rfl

theorem Scanner.phase_of_tokens {f : Fault} (s : Scanner) (h : s.tokens.fault = some f) :
    f.phase? = some .parsing := by
  rcases found : s.next with ⟨item, s'⟩
  cases item with
  | finish =>
    rw [tokens_of_finish found] at h
    cases h
  | fault f' =>
    rw [tokens_of_fault found] at h
    cases h
    exact phase_of_next found
  | token t =>
    have lt := next_rest_lt found (by simp)
    rw [tokens_of_token found] at h
    exact phase_of_tokens s' h
termination_by s.rest.length

theorem Parser.phase_of_conclude {α : Type} {ts : Tokens} {x : Except Refusal α} {f : Fault}
    (scanned : ∀ f, ts.fault = some f → f.phase? = some .parsing)
    (h : (conclude ts x).1 = .error f) : f.phase? = some .parsing := by
  cases x with
  | ok a =>
    cases stopped : ts.fault with
    | none =>
      rw [conclude, stopped] at h
      cases h
    | some f' =>
      rw [conclude, stopped] at h
      cases h
      exact scanned f stopped
  | error refusal =>
    simp only [conclude] at h
    split at h
    · cases h
      rfl
    · rename_i stopped
      cases h
      exact scanned f stopped
    · cases h
      rfl

theorem phase_of_parseProgram {text : String} {f : Fault} (h : parseProgram text = .error f) :
    f.phase? = some .parsing :=
  Parser.phase_of_conclude (fun _ => Scanner.phase_of_tokens _) h

/-! ## Evaluating -/

theorem phase_of_plan {chain : Chain} {f : Fault} (h : chain.plan = .error f) :
    f.phase? = some .evaluating := by
  cases plan_eq_error_iff.mp h with
  | fixed | call | object | start => rfl

/-- Whatever fault `x` ends in belongs to evaluation. -/
def Evaluates {σ α : Type} (x : Action σ α) : Prop :=
  ∀ s s' f, x.run.run s = (.error f, s') → f.phase? = some .evaluating

section evaluates

variable {σ α β : Type} {x : Action σ α} {g : α → Action σ β}

theorem Evaluates.bind (hx : Evaluates x) (hg : ∀ a, Evaluates (g a)) : Evaluates (x >>= g) := by
  intro s s' f h
  rcases run_bind_eq_error_iff.mp h with failed | ⟨a, s₁, -, failed⟩
  · exact hx s s' f failed
  · exact hg a s₁ s' f failed

theorem Sure.evaluates (h : Sure x) : Evaluates x := by
  intro s s' f failed
  exact absurd failed (h s s' f)

theorem evaluates_except {y : Except Fault α}
    (h : ∀ f, y = .error f → f.phase? = some .evaluating) :
    Evaluates (liftM y : Action σ α) := by
  intro s s' f failed
  cases y with
  | ok a => cases failed
  | error f' =>
    cases failed
    exact h f rfl

end evaluates

section recorder

variable (scope : Scope)

theorem evaluates_resolveObject (name : String) :
    Evaluates ((Recorder.context scope).resolveObject name) := by
  intro r r' f failed
  rw [Recorder.resolveObject_run, Recorder.resolve] at failed
  split at failed
  · cases failed
  · cases failed
    rfl

theorem evaluates_chain (chain : Chain) :
    Evaluates (chain.evaluate (Recorder.context scope)) := by
  refine (evaluates_except fun f => phase_of_plan).bind fun p => ?_
  -- Behind the plan and the object nothing can fail: a recorder makes every tween it is asked for.
  refine (evaluates_resolveObject scope p.object).bind fun object => Sure.evaluates ?_
  refine (Sure.lift _).bind fun duration => (Sure.lift _).bind fun target => ?_
  exact (Sure.lift _).bind fun t => (Sure.lift _).bind fun _ => Sure.lift (pure t)

theorem evaluates_setActive (args : List Expr) :
    Evaluates (evaluateSetActive (Recorder.context scope) args) := by
  unfold evaluateSetActive
  split
  · rename_i object flag
    refine Evaluates.bind (evaluates_except ?_) fun name => ?_
    · intro f failed
      obtain ⟨-, rfl⟩ := objectName_eq_error_iff.mp failed
      rfl
    · refine (evaluates_resolveObject scope name).bind fun path => Sure.evaluates ?_
      exact (Sure.lift _).bind fun active => Sure.lift _
  · intro r r' f failed
    cases failed
    rfl

theorem evaluates_expr (e : Expr) : Evaluates (e.evaluate (Recorder.context scope)) := by
  unfold Expr.evaluate
  split
  · exact (evaluates_chain scope _).bind fun _ => (Sure.lift (pure ())).evaluates
  · exact evaluates_setActive scope _
  · exact (Sure.lift _).evaluates
  · exact ((Sure.lift _).bind fun _ => Sure.lift (pure ())).evaluates

/-- A program ends in a fault of one of its expression statements. -/
theorem evaluates_statement (s : Statement) : Evaluates (s.evaluate (Recorder.context scope)) := by
  intro r r' f failed
  obtain ⟨front, e, -, -, failed⟩ := exists_front scope s failed
  exact evaluates_expr scope e r' r' f failed

end recorder

/-! ## Phase after phase -/

namespace Asset

theorem phase_of_validate {a : Asset} {f : Fault} (h : a.validate = .error f) :
    f.phase? = some .checking := by
  obtain ⟨cause, rfl, -⟩ := validate_eq_error_iff.mp h
  rfl

/-- An asset passes the check exactly if it is valid, and is refused for its first offence otherwise.
A run on a recorder, in whatever scope, ends in a fault of checking if the asset is refused, in a
fault of parsing if it passes and its text is no program, and the recorder is as it was then.
Otherwise it does what the program does inside the table of the asset, and ends well or in a fault of
evaluation. There are no other faults. -/
theorem run_phases (a : Asset) (scope : Scope) (r : Recorder) :
    (a.validate = .ok () ↔ a.Valid) ∧
    (∀ f, a.validate = .error f ↔ ∃ cause, f = .asset cause ∧ a.Offends cause) ∧
    (∀ f r', (a.run (Recorder.context scope)).run.run r = (.error f, r') ↔
      (f.phase? = some .checking ∧ a.validate = .error f ∧ r' = r) ∨
      (f.phase? = some .parsing ∧ a.validate = .ok () ∧ parseProgram a.expression = .error f ∧
        r' = r) ∨
      (f.phase? = some .evaluating ∧ a.validate = .ok () ∧
        ∃ program, parseProgram a.expression = .ok program ∧
          (program.evaluate (Recorder.context (a.toNameTable :: scope))).run.run r =
            (.error f, r'))) ∧
    ∀ r', (a.run (Recorder.context scope)).run.run r = (.ok (), r') ↔
      a.validate = .ok () ∧ ∃ program, parseProgram a.expression = .ok program ∧
        (program.evaluate (Recorder.context (a.toNameTable :: scope))).run.run r = (.ok (), r') := by
  refine ⟨validate_eq_ok_iff, fun f => validate_eq_error_iff, ?_, ?_⟩
  · intro f r'
    constructor
    · intro failed
      rcases checked : a.validate with f' | ⟨⟨⟩⟩
      · rw [run_of_refused _ r checked] at failed
        cases failed
        exact .inl ⟨phase_of_validate checked, rfl, rfl⟩
      · rcases parsed : parseProgram a.expression with f' | program
        · rw [run_of_unparsed _ r checked parsed] at failed
          cases failed
          exact .inr (.inl ⟨phase_of_parseProgram parsed, rfl, rfl, rfl⟩)
        · rw [run_of_parsed _ r checked parsed] at failed
          have phase := evaluates_statement (a.toNameTable :: scope) program r r' f failed
          exact .inr (.inr ⟨phase, rfl, program, rfl, failed⟩)
    · rintro (⟨-, refused, rfl⟩ | ⟨-, valid, unparsed, rfl⟩ | ⟨-, valid, program, parsed, failed⟩)
      · exact run_of_refused _ r' refused
      · exact run_of_unparsed _ r' valid unparsed
      · rw [run_of_parsed _ r valid parsed]
        exact failed
  · intro r'
    constructor
    · intro done
      rcases checked : a.validate with f | ⟨⟨⟩⟩
      · rw [run_of_refused _ r checked] at done
        cases done
      · rcases parsed : parseProgram a.expression with f | program
        · rw [run_of_unparsed _ r checked parsed] at done
          cases done
        · rw [run_of_parsed _ r checked parsed] at done
          exact ⟨rfl, program, rfl, done⟩
    · rintro ⟨valid, program, parsed, done⟩
      rw [run_of_parsed _ r valid parsed]
      exact done

end Asset

end TweenScript
