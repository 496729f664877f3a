import TweenScript.Proofs.Session.Consistency

/-!
# What stays as it is

A recorder is only ever added to. A chain tells its settings to the tween that it has just made, so
whatever is evaluated, and whatever continuations a completion resumes, the tweens that were there
stay as they were told to be, and so do the tables. All that can become of a tween is that it is
completed, which the log says (`session_extends`).
-/

namespace TweenScript

/-- Whether an operation writes into the tables, or tells a tween something by its number. -/
def Operation.Meddles : Operation → Prop
  | edit _ | configure _ _ _ => True
  | _ => False

/-- The tween `id` behind new events, which may complete it. -/
def TweenRecord.behind (t : TweenRecord) (id : Nat) (added : List Event) : TweenRecord :=
  { t with completed := t.completed || decide (.completed id ∈ added) }

theorem TweenRecord.behind_of_not_mem {t : TweenRecord} {id : Nat} {added : List Event}
    (h : .completed id ∉ added) : t.behind id added = t := by
  simp [behind, h]

theorem TweenRecord.behind_append (t : TweenRecord) (id : Nat) (added more : List Event) :
    (t.behind id added).behind id more = t.behind id (added ++ more) := by
  simp [behind, List.mem_append, Bool.or_assoc]

namespace Recorder

/-- The recorder `r'` is `r` with more in its logs, and the same in its tables. Of the tweens that `r`
has those that new events complete are complete now, which they were not; nothing else about them is
different. Only tweens that `closes` allows are completed. -/
structure Extends (closes : Nat → Prop) (r r' : Recorder) : Prop where
  tables : r'.aliases = r.aliases ∧ r'.values = r.values ∧ r'.objects = r.objects
  reads : r.reads.toList <+: r'.reads.toList
  callbacks : r.callbacks ≤ r'.callbacks
  history : ∃ added, r'.events.toList = r.events.toList ++ added ∧
    (∀ id, .completed id ∈ added → closes id ∧ r.isClosed id = false) ∧
    ∀ (id : Nat) (t : TweenRecord), r.tweens[id]? = some t → r'.tweens[id]? = some (t.behind id added)

namespace Extends

variable {closes : Nat → Prop} {r r' r'' : Recorder}

theorem refl (closes : Nat → Prop) (r : Recorder) : Extends closes r r where
  tables := ⟨rfl, rfl, rfl⟩
  reads := List.prefix_refl _
  callbacks := Nat.le_refl _
  history := by
    refine ⟨[], (List.append_nil _).symm, ?_, ?_⟩
    · intro id h
      cases h
    · intro id t ht
      rw [TweenRecord.behind_of_not_mem List.not_mem_nil]
      exact ht

theorem mono {closes' : Nat → Prop} (h : Extends closes r r') (le : ∀ id, closes id → closes' id) :
    Extends closes' r r' := by
  obtain ⟨added, log, completed, tweens⟩ := h.history
  refine ⟨h.tables, h.reads, h.callbacks, added, log, ?_, tweens⟩
  intro id hid
  exact ⟨le id (completed id hid).1, (completed id hid).2⟩

theorem isClosed (h : Extends closes r r') {id : Nat} (closed : r.isClosed id) : r'.isClosed id := by
  obtain ⟨added, -, -, tweens⟩ := h.history
  rw [Recorder.isClosed] at closed ⊢
  cases ht : r.tweens[id]? with
  | none =>
    rw [ht] at closed
    cases closed
  | some t =>
    rw [ht] at closed
    have completed : t.completed = true := closed
    rw [tweens id t ht, Option.any_some, TweenRecord.behind, completed, Bool.true_or]

theorem size_le (h : Extends closes r r') : r.tweens.size ≤ r'.tweens.size := by
  obtain ⟨added, -, -, tweens⟩ := h.history
  apply Nat.le_of_not_lt
  intro known
  have kept := tweens _ _ (Array.getElem?_eq_getElem known)
  rw [Array.getElem?_eq_none (Nat.le_refl _)] at kept
  cases kept

theorem trans (h : Extends closes r r') (h' : Extends closes r' r'') : Extends closes r r'' where
  tables := by
    obtain ⟨aliases, values, objects⟩ := h.tables
    obtain ⟨aliases', values', objects'⟩ := h'.tables
    exact ⟨aliases'.trans aliases, values'.trans values, objects'.trans objects⟩
  reads := h.reads.trans h'.reads
  callbacks := Nat.le_trans h.callbacks h'.callbacks
  history := by
    obtain ⟨added, log, completed, tweens⟩ := h.history
    obtain ⟨more, log', completed', tweens'⟩ := h'.history
    refine ⟨added ++ more, ?_, ?_, ?_⟩
    · rw [log', log, List.append_assoc]
    · intro id hid
      rcases List.mem_append.mp hid with hid | hid
      · exact completed id hid
      · -- Had it been complete at first, it would not have been open in between.
        obtain ⟨allowed, opened⟩ := completed' id hid
        refine ⟨allowed, Bool.eq_false_iff.mpr ?_⟩
        intro closed
        rw [h.isClosed closed] at opened
        cases opened
    · intro id t ht
      rw [← TweenRecord.behind_append]
      exact tweens' id _ (tweens id t ht)

theorem change (h : Extends closes r r') {id : Nat} (le : r.tweens.size ≤ id)
    (f : TweenRecord → TweenRecord) : Extends closes r (r'.change id f) := by
  obtain ⟨added, log, completed, tweens⟩ := h.history
  refine ⟨h.tables, h.reads, h.callbacks, added, log, completed, ?_⟩
  intro i t ht
  obtain ⟨lt, -⟩ := Array.getElem?_eq_some_iff.mp ht
  have other : id ≠ i := by omega
  rw [getElem?_change, if_neg other]
  exact tweens i t ht

theorem configure (h : Extends closes r r') {id : Nat} (le : r.tweens.size ≤ id)
    (setting : Setting) : Extends closes r (r'.configure id setting) := by
  cases setting with
  | andThen k =>
    have counted := h.change le fun t => { t with continuations := t.continuations + 1 }
    exact ⟨counted.tables, counted.reads, counted.callbacks, counted.history⟩
  | _ => exact h.change le _

end Extends

/-! ## Single steps -/

section steps

variable (closes : Nat → Prop) (r : Recorder)

theorem extends_noteRead (name : String) : Extends closes r (r.noteRead name) := by
  have refl := Extends.refl closes r
  refine ⟨refl.tables, ?_, refl.callbacks, refl.history⟩
  show r.reads.toList <+: (r.reads.push name).toList
  rw [Array.toList_push]
  exact List.prefix_append _ _

variable {closes r}

theorem extends_of_event {r' : Recorder} {e : Event} (silent : ∀ id, e ≠ .completed id)
    (tables : r'.aliases = r.aliases ∧ r'.values = r.values ∧ r'.objects = r.objects)
    (reads : r'.reads = r.reads) (callbacks : r.callbacks ≤ r'.callbacks)
    (log : r'.events.toList = r.events.toList ++ [e])
    (tweens : ∀ (id : Nat) (t : TweenRecord), r.tweens[id]? = some t → r'.tweens[id]? = some t) :
    Extends closes r r' := by
  have none_completed (id : Nat) : .completed id ∉ [e] := by
    intro h
    exact silent id (List.mem_singleton.mp h).symm
  have same_reads : r.reads.toList <+: r'.reads.toList :=
    reads ▸ List.prefix_refl _
  refine ⟨tables, same_reads, callbacks, [e], log, ?_, ?_⟩
  · intro id h
    exact absurd h (none_completed id)
  · intro id t ht
    rw [TweenRecord.behind_of_not_mem (none_completed id)]
    exact tweens id t ht

theorem extends_switch (object : String) (active : Bool) :
    Extends closes r (r.switch object active) := by
  apply extends_of_event (e := .setActive object active)
  · intro id h
    cases h
  · exact ⟨rfl, rfl, rfl⟩
  · rfl
  · exact Nat.le_refl _
  · exact r.log_switch object active
  · intro id t ht
    exact ht

theorem extends_call : Extends closes r r.call := by
  apply extends_of_event (e := .callback)
  · intro id h
    cases h
  · exact ⟨rfl, rfl, rfl⟩
  · rfl
  · exact Nat.le_succ _
  · exact r.log_call
  · intro id t ht
    exact ht

theorem extends_create (object : String) (channel : Channel) (duration : Float)
    (target : Option (List Float)) :
    Extends closes r (r.create object channel duration target) := by
  apply extends_of_event (e := .tween r.tweens.size)
  · intro id h
    cases h
  · exact ⟨rfl, rfl, rfl⟩
  · rfl
  · exact Nat.le_refl _
  · exact r.log_create object channel duration target
  · intro id t ht
    obtain ⟨lt, -⟩ := Array.getElem?_eq_some_iff.mp ht
    rw [getElem?_create, if_neg (Nat.ne_of_lt lt)]
    exact ht

theorem extends_finish {id : Nat} (opened : r.isOpen id) (allowed : closes id) :
    Extends closes r (r.finish id).2 := by
  refine ⟨⟨rfl, rfl, rfl⟩, List.prefix_refl _, Nat.le_refl _, [.completed id], r.log_finish id, ?_, ?_⟩
  · intro i hi
    cases List.mem_singleton.mp hi
    exact ⟨allowed, isClosed_eq_false_of_isOpen opened⟩
  · intro i t ht
    show (r.change id _).tweens[i]? = _
    rw [getElem?_change]
    by_cases same : id = i
    · subst same
      rw [if_pos rfl, ht]
      simp [TweenRecord.behind]
    · have other : Event.completed i ∉ [.completed id] := by
        simp [Ne.symm same]
      rw [if_neg same, TweenRecord.behind_of_not_mem other]
      exact ht

end steps

/-! ## Evaluation and completion -/

section evaluation

variable (closes : Nat → Prop) (r : Recorder)

/-- Evaluation adds to a recorder. The tween that is being told its settings was made on the way. -/
theorem maintains_extends (scope : Scope) : Maintains (context scope) (Extends closes r)
    fun id r' => r.tweens.size ≤ id ∧ Extends closes r r' where
  resolve name r' h := by
    rw [resolveObject_run]
    exact h
  read name r' h := h.trans (extends_noteRead closes r' name)
  readFor id name r' h := ⟨h.1, h.2.trans (extends_noteRead closes r' name)⟩
  setActive object active r' h := h.trans (extends_switch object active)
  callback r' h := h.trans extends_call
  create object channel duration target r' h :=
    ⟨h.size_le, h.trans (extends_create object channel duration target)⟩
  configure id setting r' _ h := ⟨h.1, h.2.configure h.1 setting⟩
  register id body r' h := ⟨h.1, h.2.configure h.1 (.andThen ⟨body, scope⟩)⟩
  release id r' h := h.2

theorem extends_evaluate (scope : Scope) (s : Statement) :
    Extends closes r ((s.evaluate (context scope)).run.run r).2 :=
  (maintains_extends closes r scope).statement s (.refl closes r)

theorem extends_resumeAll (ks : List Continuation) : Extends closes r ((resumeAll ks).run r).2 := by
  induction ks generalizing r with
  | nil => exact .refl closes r
  | cons k ks ih =>
    have first := extends_evaluate closes r k.scope k.body
    exact first.trans (ih _)

theorem extends_runAsset (scope : Scope) (a : Asset) :
    Extends closes r ((a.run (context scope)).run.run r).2 := by
  apply a.state_run (P := Extends closes r)
  · exact .refl closes r
  · exact extends_evaluate closes r (a.toNameTable :: scope)

variable {closes}

theorem extends_complete {id : Nat} (allowed : closes id) :
    Extends closes r ((complete id).run.run r).2 := by
  rw [complete_run_eq]
  by_cases opened : r.isOpen id
  · rw [if_pos opened, close_run_eq]
    exact (extends_finish opened allowed).trans (extends_resumeAll closes _ _)
  · rw [if_neg opened]
    exact .refl closes r

theorem extends_completeRest (allowed : ∀ id, closes id) (done : Nat) :
    Extends closes r (completeRest done r).2 := by
  fun_induction completeRest done r with
  | case1 done r plays => exact .refl closes r
  | case2 done r id plays f r' completed =>
    have first := extends_complete r (allowed id)
    rw [completed] at first
    exact first
  | case3 done r id plays b r' completed ih =>
    have first := extends_complete r (allowed id)
    rw [completed] at first
    exact first.trans ih

end evaluation

/-! ## Sessions -/

/-- An operation that does not meddle adds to the recorder, and completes what it may. -/
theorem extends_after (r : Recorder) {op : Operation} (h : ¬ op.Meddles) :
    Extends op.Closes r (engine.after r op) := by
  have keeps (scope : Scope) := maintains_extends op.Closes r scope
  have start := Extends.refl op.Closes r
  rw [Engine.after]
  cases op with
  | edit e => exact absurd trivial h
  | configure id setting plain => exact absurd trivial h
  | evaluate scope s =>
    rw [Operation.perform, state_answer]
    exact extends_evaluate _ r scope s
  | number scope e =>
    rw [Operation.perform, state_answer]
    exact (keeps scope).number e start
  | truth scope e =>
    rw [Operation.perform, state_answer]
    exact (keeps scope).truth e start
  | make scope chain =>
    rw [Operation.perform, state_answer]
    exact (keeps scope).chain chain start
  | runAsset scope a =>
    rw [Operation.perform, state_answer]
    exact extends_runAsset _ r scope a
  | create object channel duration target => exact extends_create object channel duration target
  | setActive object active => exact extends_switch object active
  | callback => exact extends_call
  | complete id =>
    rw [Operation.perform, state_answer]
    have allowed : (Operation.complete id).Closes id := rfl
    exact extends_complete r allowed
  | completeAll =>
    rw [Operation.perform, state_answer]
    have allowed (id : Nat) : Operation.completeAll.Closes id := trivial
    exact extends_completeRest r allowed 0
  | discard => exact ⟨start.tables, start.reads, start.callbacks, start.history⟩

theorem extends_run (r : Recorder) {ops : List Operation} (h : ∀ op ∈ ops, ¬ op.Meddles) :
    Extends (fun id => ∃ op ∈ ops, op.Closes id) r (engine.run r ops) := by
  induction ops generalizing r with
  | nil => exact .refl _ r
  | cons op ops ih =>
    obtain ⟨first, later⟩ := List.forall_mem_cons.mp h
    have step := extends_after r first
    have rest := ih (engine.after r op) later
    refine (step.mono ?_).trans (rest.mono ?_)
    · intro id hid
      exact ⟨op, List.mem_cons_self, hid⟩
    · rintro id ⟨op', mem, hid⟩
      exact ⟨op', List.mem_cons_of_mem op mem, hid⟩

/-- Whatever the recorder, and whether or not it fails, an operation that neither writes into the
tables nor tells a tween something by its number only adds to the recorder: what is logged stays in
front, the tables stay the same, and the tweens that were there stay as they are but for those that
it completes by an event of its own. This holds of any number of such operations in a row, so no
later program and no continuation configures a tween that was there before. -/
theorem session_extends (r : Recorder) :
    (∀ op : Operation, ¬ op.Meddles → Extends op.Closes r (engine.after r op)) ∧
    ∀ ops : List Operation, (∀ op ∈ ops, ¬ op.Meddles) →
      Extends (fun id => ∃ op ∈ ops, op.Closes id) r (engine.run r ops) :=
  ⟨fun _ h => extends_after r h, fun _ h => extends_run r h⟩

/-- A tween whose continuation makes and configures another one, and fails then. -/
theorem session_extends_completion :
    let body := Statement.block [.expr (.tween ⟨.alpha, "A", [.variable "b", .number 1],
      [.delay [.number 2]]⟩), .expr (.setActive [])]
    let r := engine.run {} [.make [] ⟨.alpha, "A", [.variable "a", .number 1], [.andThen body]⟩]
    ¬ (Operation.complete 0).Meddles ∧
    Extends (Operation.complete 0).Closes r (engine.after r (.complete 0)) := by
  intro body r
  have spares : ¬ (Operation.complete 0).Meddles := fun h => h
  exact ⟨spares, (session_extends r).1 (.complete 0) spares⟩

end Recorder

end TweenScript
