import TweenScript.Recorder

/-!
# Views on a recorder

The views of an expression depend on what its variables stand for and on nothing else
(`Expr.numberIn`, `Expr.truthIn`). Both look up the same variables, those on the evaluated path from
left to right (`Expr.reads`), and on a recorder this is all that they leave behind
(`Recorder.number_run`, `Recorder.truth_run`).
-/

namespace TweenScript

namespace Expr

/-! ## Values and reads -/

section views

variable (look : String → Option Float)

/-- The value as a number where variables stand for what `look` says. -/
def numberIn (e : Expr) : Float :=
  Id.run (e.asNumber fun name => pure (look name))

/-- The value as a truth value where variables stand for what `look` says. -/
def truthIn (e : Expr) : Bool :=
  Id.run (e.asTruth fun name => pure (look name))

/-- The variables on the evaluated path, from left to right: the condition comes before the branch
that is taken, and nothing after what decides a logical operator. -/
def reads : Expr → List String
  | .number _ | .tween _ | .setActive _ | .callback => []
  | .variable name => [name]
  | .conditional c yes no => reads c ++ if c.truthIn look then reads yes else reads no
  | .unary _ e => reads e
  | .binary (.arithmetic _) l r | .binary (.comparison _) l r => reads l ++ reads r
  | .binary (.logical .or) l r => reads l ++ if l.truthIn look then [] else reads r
  | .binary (.logical .and) l r => reads l ++ if l.truthIn look then reads r else []

theorem numberIn_conditional (c yes no : Expr) : (conditional c yes no).numberIn look =
    if c.truthIn look then yes.numberIn look else no.numberIn look := by
  rw [numberIn, asNumber]
  show Id.run (if c.truthIn look then _ else _) = _
  split <;> rfl

theorem truthIn_conditional (c yes no : Expr) : (conditional c yes no).truthIn look =
    isPositive (if c.truthIn look then yes.numberIn look else no.numberIn look) := by
  rw [truthIn, asTruth]
  show Id.run (if c.truthIn look then _ else _) = _
  split <;> rfl

theorem numberIn_or (l r : Expr) : (binary (.logical .or) l r).numberIn look =
    indicator (l.truthIn look || r.truthIn look) := by
  rw [numberIn, asNumber]
  show Id.run (if l.truthIn look then _ else _) = _
  cases l.truthIn look <;> rfl

theorem truthIn_or (l r : Expr) : (binary (.logical .or) l r).truthIn look =
    (l.truthIn look || r.truthIn look) := by
  rw [truthIn, asTruth]
  show Id.run (if l.truthIn look then _ else _) = _
  cases l.truthIn look <;> rfl

theorem numberIn_and (l r : Expr) : (binary (.logical .and) l r).numberIn look =
    indicator (l.truthIn look && r.truthIn look) := by
  rw [numberIn, asNumber]
  show Id.run (if l.truthIn look then _ else _) = _
  cases l.truthIn look <;> rfl

theorem truthIn_and (l r : Expr) : (binary (.logical .and) l r).truthIn look =
    (l.truthIn look && r.truthIn look) := by
  rw [truthIn, asTruth]
  show Id.run (if l.truthIn look then _ else _) = _
  cases l.truthIn look <;> rfl

end views

end Expr

namespace Recorder

/-- What a variable stands for in a scope of a recorder. -/
def look (r : Recorder) (scope : Scope) (name : String) : Option Float :=
  r.values[name]?.or (scope.value? name)

/-- Logs several reads. -/
def noteReads (r : Recorder) (names : List String) : Recorder :=
  { r with reads := r.reads ++ names.toArray }

section noteReads

variable (r : Recorder)

@[simp] theorem noteReads_nil : r.noteReads [] = r := by
  simp [noteReads]

@[simp] theorem noteReads_noteReads (xs ys : List String) :
    (r.noteReads xs).noteReads ys = r.noteReads (xs ++ ys) := by
  simp [noteReads]

@[simp] theorem look_noteReads (names : List String) (scope : Scope) :
    (r.noteReads names).look scope = r.look scope := rfl

theorem noteRead_eq (name : String) : r.noteRead name = r.noteReads [name] := by
  simp [noteRead, noteReads]

end noteReads

section views

variable (scope : Scope)

variable {α β : Type} {r : Recorder} {names names' : List String}

theorem run_pure_reads (a : α) (r : Recorder) :
    (pure a : StateM Recorder α).run r = (a, r.noteReads []) := by
  rw [noteReads_nil]
  rfl

theorem run_bind_reads {x : StateM Recorder α} {f : α → StateM Recorder β} {a : α} {b : β}
    (hx : x.run r = (a, r.noteReads names))
    (hf : (f a).run (r.noteReads names) = (b, (r.noteReads names).noteReads names')) :
    (x >>= f).run r = (b, r.noteReads (names ++ names')) := by
  rw [StateT.run_bind, hx, ← noteReads_noteReads]
  exact hf

theorem run_answer_reads {x : StateM Recorder α} {a : α} (hx : x.run r = (a, r.noteReads names))
    (f : α → β) : (do return f (← x)).run r = (f a, r.noteReads names) := by
  rw [StateT.run_bind, hx]
  rfl

theorem readVariable_run (name : String) (r : Recorder) :
    ((context scope).readVariable name).run r = (r.look scope name, r.noteReads [name]) := by
  rw [← noteRead_eq]
  rfl

mutual

/-- The number view logs its reads and does nothing else. -/
theorem number_run : ∀ (e : Expr) (r : Recorder), ((context scope).number e).run r =
    (e.numberIn (r.look scope), r.noteReads (e.reads (r.look scope)))
  | .variable name, r => run_answer_reads (readVariable_run scope name r) _
  | .conditional c yes no, r => by
    rw [Context.number, Expr.asNumber, Expr.reads, Expr.numberIn_conditional]
    refine run_bind_reads (truth_run c r) ?_
    -- the recorder with the reads logged looks up the same values
    cases c.truthIn (r.look scope) with
    | true => exact number_run yes (r.noteReads _)
    | false => exact number_run no (r.noteReads _)
  | .unary .neg e, r => run_answer_reads (number_run e r) _
  | .unary .not e, r => run_answer_reads (truth_run e r) _
  | .binary (.arithmetic _) e e', r =>
    run_bind_reads (number_run e r) (run_answer_reads (number_run e' _) _)
  | .binary (.comparison _) e e', r =>
    run_bind_reads (number_run e r) (run_answer_reads (number_run e' _) _)
  | .binary (.logical .or) e e', r => by
    rw [Context.number, Expr.asNumber, Expr.reads, Expr.numberIn_or]
    refine run_bind_reads (truth_run e r) ?_
    cases e.truthIn (r.look scope) with
    | true => exact run_pure_reads _ _
    | false => exact run_answer_reads (truth_run e' (r.noteReads _)) _
  | .binary (.logical .and) e e', r => by
    rw [Context.number, Expr.asNumber, Expr.reads, Expr.numberIn_and]
    refine run_bind_reads (truth_run e r) ?_
    cases e.truthIn (r.look scope) with
    | true => exact run_answer_reads (truth_run e' (r.noteReads _)) _
    | false => exact run_pure_reads _ _
  | .number _, r | .tween _, r | .setActive _, r | .callback, r => run_pure_reads _ r

/-- The truth view logs the same reads and does nothing else. -/
theorem truth_run : ∀ (e : Expr) (r : Recorder), ((context scope).truth e).run r =
    (e.truthIn (r.look scope), r.noteReads (e.reads (r.look scope)))
  | .variable name, r => run_answer_reads (readVariable_run scope name r) _
  | .conditional c yes no, r => by
    rw [Context.truth, Expr.asTruth, Expr.reads, Expr.truthIn_conditional]
    refine run_bind_reads (truth_run c r) ?_
    cases c.truthIn (r.look scope) with
    | true => exact run_answer_reads (number_run yes (r.noteReads _)) _
    | false => exact run_answer_reads (number_run no (r.noteReads _)) _
  | .unary .neg e, r => run_answer_reads (number_run e r) _
  | .unary .not e, r => run_answer_reads (truth_run e r) _
  | .binary (.arithmetic _) e e', r =>
    run_bind_reads (number_run e r) (run_answer_reads (number_run e' _) _)
  | .binary (.comparison _) e e', r =>
    run_bind_reads (number_run e r) (run_answer_reads (number_run e' _) _)
  | .binary (.logical .or) e e', r => by
    rw [Context.truth, Expr.asTruth, Expr.reads, Expr.truthIn_or]
    refine run_bind_reads (truth_run e r) ?_
    cases e.truthIn (r.look scope) with
    | true => exact run_pure_reads _ _
    | false => exact truth_run e' (r.noteReads _)
  | .binary (.logical .and) e e', r => by
    rw [Context.truth, Expr.asTruth, Expr.reads, Expr.truthIn_and]
    refine run_bind_reads (truth_run e r) ?_
    cases e.truthIn (r.look scope) with
    | true => exact truth_run e' (r.noteReads _)
    | false => exact run_pure_reads _ _
  | .number _, r | .tween _, r | .setActive _, r | .callback, r => run_pure_reads _ r

end

end views

end Recorder

end TweenScript
