import TweenScript.Proofs.Simulation
import TweenScript.Recorder

/-!
# What evaluation adds to a history

A program looks at the three tables of a recorder and at nothing else. Evaluated on a recorder it
does what it does on a blank one with the same tables, and the blank one's log is appended, its
tweens being numbered on (`evaluate_append`).
-/

namespace TweenScript

/-! ## Logs behind logs -/

/-- The record of a tween that is numbered `n` higher. -/
def TweenRecord.shift (n : Nat) (t : TweenRecord) : TweenRecord :=
  { t with id := n + t.id }

namespace Event

/-- The event of tweens that are numbered `n` higher. -/
def shift (n : Nat) : Event → Event
  | tween id => tween (n + id)
  | completed id => completed (n + id)
  | setActive object active => setActive object active
  | callback => callback

/-- What an event makes of the objects switched so far. -/
def switch (active : Std.TreeMap String Bool) : Event → Std.TreeMap String Bool
  | setActive object on => active.insert object on
  | _ => active

end Event

namespace Recorder

/-- The recorder `r` with the log of `e` behind its own: the tweens of `e` are numbered on from those
of `r`, and its events switch the objects of `r`. -/
def append (r e : Recorder) : Recorder :=
  { r with
    tweens := r.tweens ++ e.tweens.map (TweenRecord.shift r.tweens.size)
    pending := r.pending ++ e.pending.map fun p => (r.tweens.size + p.1, p.2)
    active := e.events.foldl Event.switch r.active
    callbacks := r.callbacks + e.callbacks
    events := r.events ++ e.events.map (Event.shift r.tweens.size)
    reads := r.reads ++ e.reads }

/-- The recorder with its tables and without its log. -/
def blank (r : Recorder) : Recorder :=
  { aliases := r.aliases, values := r.values, objects := r.objects }

/-- Whatever is looked up in two recorders, the answers are the same. -/
structure SameTables (r₁ r₂ : Recorder) : Prop where
  aliases : ∀ name : String, r₁.aliases[name]? = r₂.aliases[name]?
  values : ∀ name : String, r₁.values[name]? = r₂.values[name]?
  objects : ∀ path, r₁.resolves path = r₂.resolves path

namespace SameTables

variable {r₁ r₂ r₃ : Recorder}

theorem of_blank_eq (h : r₁.blank = r₂.blank) : r₁.SameTables r₂ := by
  have answer {α : Type} (look : Recorder → α) : look r₁.blank = look r₂.blank := congrArg look h
  exact ⟨fun name => answer (·.aliases[name]?), fun name => answer (·.values[name]?),
    fun path => answer (·.resolves path)⟩

theorem trans (h : r₁.SameTables r₂) (h' : r₂.SameTables r₃) : r₁.SameTables r₃ where
  aliases name := (h.aliases name).trans (h'.aliases name)
  values name := (h.values name).trans (h'.values name)
  objects path := (h.objects path).trans (h'.objects path)

theorem resolve_eq (h : r₁.SameTables r₂) (name : String) : r₁.resolve name = r₂.resolve name := by
  have path_eq : r₁.aliases.getD name name = r₂.aliases.getD name name := by
    rw [Std.TreeMap.getD_eq_getD_getElem?, h.aliases, ← Std.TreeMap.getD_eq_getD_getElem?]
  simp only [resolve, path_eq, h.objects]

end SameTables

section append

variable (r e : Recorder)

theorem sameTables_append : (r.append e).SameTables r :=
  .of_blank_eq rfl

@[simp] theorem size_append :
    (r.append e).tweens.size = r.tweens.size + e.tweens.size := by
  simp [append]

theorem append_blank (tables : Recorder) : r.append tables.blank = r := by
  simp [append, blank]

theorem append_noteRead (name : String) :
    (r.append e).noteRead name = r.append (e.noteRead name) := by
  simp [append, noteRead]

theorem append_switch (object : String) (active : Bool) :
    (r.append e).switch object active = r.append (e.switch object active) := by
  simp [append, switch, Event.shift, Event.switch]

theorem append_call : (r.append e).call = r.append e.call := by
  simp [append, call, Event.shift, Event.switch, Nat.add_assoc]

theorem append_create (object : String) (channel : Channel) (duration : Float)
    (target : Option (List Float)) :
    (r.append e).create object channel duration target =
      r.append (e.create object channel duration target) := by
  simp [append, create, Event.shift, Event.switch, TweenRecord.shift]

theorem modify_append_map {α β : Type} {f : β → β} {f' : α → α} {g : α → β}
    (h : ∀ a, f (g a) = g (f' a)) (xs : Array β) (ys : Array α) (i : Nat) :
    (xs ++ ys.map g).modify (xs.size + i) f = xs ++ (ys.modify i f').map g := by
  refine Array.ext_getElem? fun j => ?_
  simp only [Array.getElem?_modify, Array.getElem?_append, Array.getElem?_map]
  by_cases hj : j < xs.size
  · have other : xs.size + i ≠ j := by omega
    simp [hj, other]
  · have same : xs.size + i = j ↔ i = j - xs.size := by omega
    simp only [hj, if_false, same]
    split
    · cases ys[j - xs.size]? with
      | none => rfl
      | some a => simp [h]
    · rfl

theorem append_change (id : Nat) {f : TweenRecord → TweenRecord}
    (h : ∀ n t, f (t.shift n) = (f t).shift n) :
    (r.append e).change (r.tweens.size + id) f = r.append (e.change id f) := by
  simp only [append, change, modify_append_map (h r.tweens.size)]

theorem append_configure (id : Nat) (setting : Setting) :
    (r.append e).configure (r.tweens.size + id) setting = r.append (e.configure id setting) := by
  cases setting with
  | andThen k =>
    have counted := r.append_change e id
      (f := fun t => { t with continuations := t.continuations + 1 }) fun _ _ => rfl
    simp only [configure, counted]
    simp [append, change]
  | _ => exact r.append_change e id fun _ _ => rfl

end append

/-! ## Evaluation -/

/-- The recorder `r'` is `r` with the log of `e` behind it, and `e` looks the same things up. -/
structure Continues (r e r' : Recorder) : Prop where
  eq : r' = r.append e
  tables : e.SameTables r

section evaluation

variable (scope : Scope)

theorem continues_read {r e r' : Recorder} (h : r.Continues e r') (name : String) :
    Alike r.Continues (((context scope).readVariable name).run e).1
      (((context scope).readVariable name).run r').1
      (((context scope).readVariable name).run e).2
      (((context scope).readVariable name).run r').2 := by
  obtain ⟨rfl, same⟩ := h
  refine ⟨?_, r.append_noteRead e name, ⟨same.aliases, same.values, same.objects⟩⟩
  show (e.values[name]?).or (scope.value? name) = (r.values[name]?).or (scope.value? name)
  rw [same.values]

theorem continues_configure {r e r' : Recorder} (h : r.Continues e r') (id : Nat)
    (setting : Setting) :
    r.Continues (e.configure id setting) (r'.configure (r.tweens.size + id) setting) := by
  obtain ⟨rfl, same⟩ := h
  refine ⟨r.append_configure e id setting, SameTables.trans ?_ same⟩
  cases setting <;> exact .of_blank_eq rfl

/-- Every operation of the host commutes with what is in the log already. A tween being told its
settings has its number in the log that is appended. -/
theorem continues_simulates (r : Recorder) :
    Simulates (context scope) (context scope) r.Continues (· = ·)
      fun i id e r' => id = r.tweens.size + i ∧ r.Continues e r' where
  resolve name := by
    rintro e _ ⟨rfl, same⟩
    have resolve_eq : (r.append e).resolve (scope.path name) = e.resolve (scope.path name) :=
      ((r.sameTables_append e).resolve_eq _).trans (same.resolve_eq _).symm
    rw [resolveObject_run, resolveObject_run, resolve_eq]
    cases e.resolve (scope.path name) with
    | ok path => exact ⟨rfl, rfl, same⟩
    | error f => exact ⟨rfl, rfl, same⟩
  read name e r' h := continues_read scope h name
  readFor i id name := by
    rintro e r' ⟨numbered, h⟩
    obtain ⟨same, h'⟩ := continues_read scope h name
    exact ⟨same, numbered, h'⟩
  setActive object _ active := by
    rintro rfl e _ ⟨rfl, same⟩
    exact ⟨r.append_switch e object active, ⟨same.aliases, same.values, same.objects⟩⟩
  callback := by
    rintro e _ ⟨rfl, same⟩
    exact ⟨r.append_call e, ⟨same.aliases, same.values, same.objects⟩⟩
  create object _ channel duration target := by
    rintro rfl e _ ⟨rfl, same⟩
    exact ⟨r.size_append e, r.append_create e object channel duration target,
      ⟨same.aliases, same.values, same.objects⟩⟩
  configure i _ setting _ := by
    rintro e r' ⟨rfl, h⟩
    exact ⟨rfl, continues_configure h i setting⟩
  register i _ body := by
    rintro e r' ⟨rfl, h⟩
    exact ⟨rfl, continues_configure h i (.andThen ⟨body, scope⟩)⟩
  release i id e r' h := h.2

/-- A program does to a recorder what it does to a blank one that looks the same things up, behind
what is in the log already. -/
theorem evaluate_append (s : Statement) {tables r : Recorder} (same : tables.SameTables r) :
    (s.evaluate (context scope)).run.run r =
      (((s.evaluate (context scope)).run.run tables.blank).1,
        r.append ((s.evaluate (context scope)).run.run tables.blank).2) := by
  have blanked : tables.blank.SameTables tables := .of_blank_eq rfl
  have start : r.Continues tables.blank r :=
    ⟨(r.append_blank tables).symm, blanked.trans same⟩
  have related := ((continues_simulates scope r).statement s _ _ start).alike_unit
  exact Prod.ext related.1.symm related.2.eq

/-- What a program does depends on the tables and not on the log: from two recorders that look the
same things up it comes to the same outcome and appends the same log, tweens being numbered on. It
leaves the tables as they are, so evaluated once more it does the same once more. -/
theorem evaluate_of_sameTables (s : Statement) {r₁ r₂ : Recorder} (same : r₁.SameTables r₂) :
    ∃ outcome e,
      (s.evaluate (context scope)).run.run r₁ = (outcome, r₁.append e) ∧
      (s.evaluate (context scope)).run.run r₂ = (outcome, r₂.append e) ∧
      (r₁.append e).blank = r₁.blank ∧ (r₂.append e).blank = r₂.blank ∧
      (s.evaluate (context scope)).run.run (r₁.append e) = (outcome, (r₁.append e).append e) := by
  have once := evaluate_append scope s (SameTables.of_blank_eq (Eq.refl r₁.blank))
  refine ⟨_, _, once, evaluate_append scope s same, rfl, rfl, ?_⟩
  exact evaluate_append scope s (.of_blank_eq rfl)

end evaluation

/-- A tween whose continuation waits, made on a blank recorder and on one with a tween already. -/
theorem evaluate_behind_a_tween :
    let before := (({} : Recorder).create "Panel" .alpha 1 none).call
    let s := Statement.expr (.tween ⟨.position .x, "X", [.variable "Title", .variable "time"],
      [.andThen (.expr .callback)]⟩)
    SameTables {} before ∧
    ∃ outcome e,
      (s.evaluate (context [])).run.run {} = (outcome, append {} e) ∧
      (s.evaluate (context [])).run.run before = (outcome, before.append e) ∧
      (append {} e).blank = blank {} ∧ (before.append e).blank = before.blank ∧
      (s.evaluate (context [])).run.run (append {} e) = (outcome, (append {} e).append e) :=
  ⟨.of_blank_eq rfl, evaluate_of_sameTables [] _ (.of_blank_eq rfl)⟩

end Recorder

end TweenScript
