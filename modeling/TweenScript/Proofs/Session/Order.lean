import Mathlib.Data.List.Perm.Basic
import TweenScript.Proofs.Session.Completion

/-!
# The order of completions

What completing a tween does depends on the tables and on the continuations that wait for it, and no
completion changes these for another tween that is there. So whatever the order in which tweens are
completed, each appends the same block to the log, new tweens being numbered on from where the block
begins (`complete_perm`).
-/

namespace TweenScript

/-- Whether an event is about a numbered tween. -/
def Event.isNumbered : Event → Bool
  | tween _ | completed _ => true
  | setActive _ _ | callback => false

/-- A tween without its number. -/
def TweenRecord.unnumbered (t : TweenRecord) : TweenRecord :=
  { t with id := 0 }

namespace Recorder

/-! ## One completion -/

/-- The continuations that wait for a tween, in the order of their registration. -/
def waitingFor (r : Recorder) (id : Nat) : List Continuation :=
  (r.pending.filter fun p => p.1 == id).map (·.2)

/-- The recorder once a tween is marked complete and its continuations are taken out. -/
def marked (r : Recorder) (id : Nat) : Recorder :=
  if r.isOpen id then (r.finish id).2 else r

/-- What the continuations of a tween come to on a blank log. -/
def aftermath (r : Recorder) (id : Nat) : Option Fault × Recorder :=
  (resumeAll (r.waitingFor id)).run r.blank

/-- The answer to completing a tween. -/
def answer (r : Recorder) (id : Nat) : Except Fault Bool :=
  if r.isOpen id then verdict (r.aftermath id).1 else .ok false

/-- The log that completing a tween appends, its new tweens being numbered from zero. -/
def block (r : Recorder) (id : Nat) : Recorder :=
  (r.aftermath id).2

theorem finish_fst (r : Recorder) (id : Nat) : (r.finish id).1 = r.waitingFor id := by
  rw [finish, List.partition_eq_filter_filter]
  rfl

theorem finish_pending (r : Recorder) (id : Nat) :
    (r.finish id).2.pending = r.pending.filter fun p => !(p.1 == id) := by
  rw [finish, List.partition_eq_filter_filter]
  rfl

/-- Resumption does to a recorder what it does to a blank one that looks the same things up, behind
what is in the log already. -/
theorem resumeAll_append (ks : List Continuation) {tables r : Recorder} (same : tables.SameTables r) :
    (resumeAll ks).run r =
      (((resumeAll ks).run tables.blank).1, r.append ((resumeAll ks).run tables.blank).2) := by
  have resumed (r : Recorder) (ks : List Continuation) :
      Related r.Continues (resumeAll ks) (resumeAll ks) (Alike r.Continues) := by
    induction ks with
    | nil => exact .pure_alike _
    | cons k ks ih =>
      have first : Related r.Continues (k.resume host).run (k.resume host).run
          (Alike r.Continues) :=
        ((continues_simulates k.scope r).statement k.body).mono fun _ _ _ _ h => h.alike_unit
      exact first.bind_alike fun outcome => ih.bind_alike fun later => .pure_alike _
  have blanked : tables.blank.SameTables tables := .of_blank_eq rfl
  have start : r.Continues tables.blank r :=
    ⟨(r.append_blank tables).symm, blanked.trans same⟩
  have related := resumed r ks _ _ start
  exact Prod.ext related.1.symm related.2.eq

theorem Consistent.waitingFor_eq_nil {r : Recorder} (h : r.Consistent) {id : Nat}
    (closed : ¬ r.isOpen id) : r.waitingFor id = [] := by
  rw [waitingFor, List.map_eq_nil_iff, List.filter_eq_nil_iff]
  intro p hp same
  rw [← beq_iff_eq.mp same] at closed
  exact closed (h.pending p hp)

/-- Completing a tween marks it and appends its block. -/
theorem Consistent.complete_eq {r : Recorder} (h : r.Consistent) (id : Nat) :
    (complete id).run.run r = (r.answer id, (r.marked id).append (r.block id)) := by
  rw [complete_run_eq, answer, marked]
  by_cases opened : r.isOpen id
  · have tables : r.SameTables (r.finish id).2 := .of_blank_eq rfl
    rw [if_pos opened, if_pos opened, if_pos opened, close_run_eq, finish_fst,
      resumeAll_append _ tables]
    rfl
  · have silent : r.block id = r.blank := by
      rw [block, aftermath, h.waitingFor_eq_nil opened]
      rfl
    rw [if_neg opened, if_neg opened, if_neg opened, silent, append_blank]

theorem Consistent.after_complete {r : Recorder} (h : r.Consistent) (id : Nat) :
    engine.after r (.complete id) = (r.marked id).append (r.block id) := by
  rw [Engine.after, Operation.perform, state_answer]
  exact congrArg Prod.snd (h.complete_eq id)

/-! ## What a completion leaves alone -/

section marked

variable (r : Recorder) (id : Nat)

theorem size_marked : (r.marked id).tweens.size = r.tweens.size := by
  rw [marked]
  split
  · exact Array.size_modify
  · rfl

theorem blank_marked : (r.marked id).blank = r.blank := by
  rw [marked]
  split <;> rfl

theorem waitingFor_marked {i : Nat} (other : i ≠ id) :
    (r.marked id).waitingFor i = r.waitingFor i := by
  rw [marked]
  split
  · rw [waitingFor, finish_pending, List.filter_filter, waitingFor]
    congr 2
    funext p
    by_cases same : p.1 = i
    · simp [same, other]
    · simp [same]
  · rfl

theorem isOpen_marked {i : Nat} (other : i ≠ id) : (r.marked id).isOpen i = r.isOpen i := by
  rw [marked]
  split
  · rw [isOpen_finish]
    simp [other]
  · rfl

theorem getElem?_marked (i : Nat) :
    (r.marked id).tweens[i]? =
      if id = i then r.tweens[i]?.map fun t => { t with completed := true } else r.tweens[i]? := by
  rw [marked]
  by_cases opened : r.isOpen id
  · rw [if_pos opened]
    exact r.getElem?_change id _ i
  · rw [if_neg opened]
    by_cases same : id = i
    · subst same
      rw [if_pos rfl]
      cases ht : r.tweens[id]? with
      | none => rfl
      | some t =>
        have completed : t.completed = true := by
          rw [isOpen, ht] at opened
          simpa using opened
        rw [Option.map_some, ← completed]
    · rw [if_neg same]

end marked

section append

variable (r e : Recorder)

theorem waitingFor_append {i : Nat} (known : i < r.tweens.size) :
    (r.append e).waitingFor i = r.waitingFor i := by
  have later : ((e.pending.map fun p => (r.tweens.size + p.1, p.2)).filter fun p => p.1 == i) = [] := by
    rw [List.filter_eq_nil_iff]
    intro p hp same
    obtain ⟨q, -, rfl⟩ := List.mem_map.mp hp
    have numbered : r.tweens.size + q.1 = i := beq_iff_eq.mp same
    omega
  rw [waitingFor, append, List.filter_append, later, List.append_nil, waitingFor]

theorem isOpen_append {i : Nat} (known : i < r.tweens.size) :
    (r.append e).isOpen i = r.isOpen i := by
  have below : (r.append e).tweens[i]? = r.tweens[i]? := Array.getElem?_append_left known
  rw [isOpen, isOpen, below]

end append

theorem answer_block_of_complete (r e : Recorder) {id i : Nat} (other : i ≠ id)
    (known : i < r.tweens.size) :
    ((r.marked id).append e).answer i = r.answer i ∧
      ((r.marked id).append e).block i = r.block i := by
  have known' : i < (r.marked id).tweens.size := by rwa [size_marked]
  have tables : ((r.marked id).append e).blank = r.blank := r.blank_marked id
  have opened : ((r.marked id).append e).isOpen i = r.isOpen i := by
    rw [isOpen_append _ e known', isOpen_marked r id other]
  have waits : ((r.marked id).append e).waitingFor i = r.waitingFor i := by
    rw [waitingFor_append _ e known', waitingFor_marked r id other]
  have same : ((r.marked id).append e).aftermath i = r.aftermath i := by
    rw [aftermath, waits, tables, aftermath]
  constructor
  · rw [answer, opened, same, answer]
  · rw [block, same, block]

/-! ## Completions in a row -/

/-- Completing the tweens one after the other gives the answers and appends the blocks, each of them
right behind the completion. -/
inductive InBlocks (answer : Nat → Except Fault Bool) (block : Nat → Recorder) :
    Recorder → List Nat → Recorder → Prop where
  | nil {r : Recorder} : InBlocks answer block r [] r
  | cons {r r' : Recorder} {id : Nat} {ids : List Nat}
    (completed : (complete id).run.run r = (answer id, (r.marked id).append (block id)))
    (more : InBlocks answer block ((r.marked id).append (block id)) ids r') :
    InBlocks answer block r (id :: ids) r'

theorem InBlocks.congr {answer answer' : Nat → Except Fault Bool} {block block' : Nat → Recorder}
    {r r' : Recorder} {ids : List Nat} (h : InBlocks answer block r ids r')
    (same : ∀ id ∈ ids, answer id = answer' id ∧ block id = block' id) :
    InBlocks answer' block' r ids r' := by
  induction h with
  | nil => exact .nil
  | @cons r r' id ids completed _ ih =>
    obtain ⟨answered, appended⟩ := same id List.mem_cons_self
    rw [answered, appended] at completed
    rw [appended] at ih
    exact .cons completed (ih fun i hi => same i (List.mem_cons_of_mem id hi))

/-- Each tween has the answer and the block that it would have if it were completed at once. -/
theorem Consistent.inBlocks {r : Recorder} (h : r.Consistent) {ids : List Nat} (nodup : ids.Nodup)
    (known : ∀ id ∈ ids, id < r.tweens.size) :
    InBlocks r.answer r.block r ids (engine.run r (ids.map .complete)) := by
  induction ids generalizing r with
  | nil => exact .nil
  | cons id ids ih =>
    have after := h.after_complete id
    have h' : ((r.marked id).append (r.block id)).Consistent := after ▸ h.after (.complete id)
    obtain ⟨fresh, nodup⟩ := List.nodup_cons.mp nodup
    have known' (i : Nat) (hi : i ∈ ids) : i < ((r.marked id).append (r.block id)).tweens.size := by
      have lt := known i (List.mem_cons_of_mem id hi)
      rw [size_append, size_marked]
      omega
    refine .cons (h.complete_eq id) ?_
    rw [List.map_cons, Engine.run, List.foldl_cons, after]
    refine (ih h' nodup known').congr fun i hi => ?_
    have other : i ≠ id := fun same => fresh (same ▸ hi)
    exact r.answer_block_of_complete _ other (known i (List.mem_cons_of_mem id hi))

/-! ## What a row of completions appends -/

/-- The tweens from number `n` on without their numbers, each with the continuations that wait for
it. -/
def madeFrom (n : Nat) (r : Recorder) : List (TweenRecord × List Continuation) :=
  (r.tweens.toList.drop n).map fun t => (t.unnumbered, r.waitingFor t.id)

/-- The events of a log that are not about numbered tweens. -/
def unnumberedEvents (r : Recorder) : List Event :=
  r.events.toList.filter fun e => !e.isNumbered

theorem unnumberedEvents_append (r e : Recorder) :
    (r.append e).unnumberedEvents = r.unnumberedEvents ++ e.unnumberedEvents := by
  have shifted (log : List Event) :
      (log.map (Event.shift r.tweens.size)).filter (fun e => !e.isNumbered) =
        log.filter fun e => !e.isNumbered := by
    induction log with
    | nil => rfl
    | cons e log ih => cases e <;> simpa [Event.shift, Event.isNumbered] using ih
  show ((r.events ++ e.events.map (Event.shift r.tweens.size)).toList.filter fun e => !e.isNumbered) = _
  rw [Array.toList_append, Array.toList_map, List.filter_append, shifted]
  rfl

theorem unnumberedEvents_marked (r : Recorder) (id : Nat) :
    (r.marked id).unnumberedEvents = r.unnumberedEvents := by
  rw [marked]
  split
  · rw [unnumberedEvents, log_finish, List.filter_append, unnumberedEvents]
    exact List.append_nil _
  · rfl

theorem madeFrom_marked {r : Recorder} (h : r.Consistent) {n id : Nat} (lt : id < n) :
    madeFrom n (r.marked id) = madeFrom n r := by
  refine List.ext_getElem? fun i => ?_
  simp only [madeFrom, List.getElem?_map, List.getElem?_drop, Array.getElem?_toList]
  have other : id ≠ n + i := by omega
  rw [getElem?_marked, if_neg other]
  cases ht : r.tweens[n + i]? with
  | none => rfl
  | some t =>
    have numbered : t.id ≠ id := by
      rw [h.ids _ t ht]
      exact Ne.symm other
    rw [Option.map_some, Option.map_some, waitingFor_marked r id numbered]

theorem waitingFor_append_shift {r : Recorder} (h : r.Consistent) (e : Recorder) (i : Nat) :
    (r.append e).waitingFor (r.tweens.size + i) = e.waitingFor i := by
  have earlier : (r.pending.filter fun p => p.1 == r.tweens.size + i) = [] := by
    rw [List.filter_eq_nil_iff]
    intro p hp same
    have lt := lt_size_of_isOpen (h.pending p hp)
    have numbered : p.1 = r.tweens.size + i := beq_iff_eq.mp same
    omega
  have numbered : ((fun p : Nat × Continuation => p.1 == r.tweens.size + i) ∘
      fun p : Nat × Continuation => (r.tweens.size + p.1, p.2)) = fun p => p.1 == i := by
    funext p
    simp
  rw [waitingFor, append, List.filter_append, earlier, List.nil_append, List.filter_map, numbered,
    List.map_map]
  rfl

theorem madeFrom_append {r e : Recorder} (h : r.Consistent) {n : Nat}
    (le : n ≤ r.tweens.size) : madeFrom n (r.append e) = madeFrom n r ++ madeFrom 0 e := by
  have tweens : (r.append e).tweens.toList.drop n = r.tweens.toList.drop n ++
      e.tweens.toList.map (TweenRecord.shift r.tweens.size) := by
    show (r.tweens ++ e.tweens.map (TweenRecord.shift r.tweens.size)).toList.drop n = _
    rw [Array.toList_append, Array.toList_map, List.drop_append_of_le_length le]
  rw [madeFrom, tweens, List.map_append, List.map_map]
  refine congrArg₂ (· ++ ·) (List.map_congr_left fun t ht => ?_) (List.map_congr_left fun t ht => ?_)
  · obtain ⟨i, hi⟩ := List.mem_iff_getElem?.mp (List.mem_of_mem_drop ht)
    rw [Array.getElem?_toList] at hi
    have numbered := h.ids i t hi
    have known : t.id < r.tweens.size := by
      rw [numbered]
      exact (Array.getElem?_eq_some_iff.mp hi).1
    rw [waitingFor_append r e known]
  · exact congrArg (t.unnumbered, ·) (waitingFor_append_shift h e t.id)

theorem Consistent.marked {r : Recorder} (h : r.Consistent) (id : Nat) : (r.marked id).Consistent := by
  rw [Recorder.marked]
  split
  · exact h.finish ‹_›
  · exact h

theorem InBlocks.lengthens {answer : Nat → Except Fault Bool} {block : Nat → Recorder}
    {r r' : Recorder} {ids : List Nat} (h : InBlocks answer block r ids r') {n : Nat}
    {α : Type} {f g : Recorder → List α}
    (step : ∀ r e id, r.Consistent → id < n → n ≤ r.tweens.size →
      f ((r.marked id).append e) = f r ++ g e)
    (consistent : r.Consistent) (known : ∀ id ∈ ids, id < n) (le : n ≤ r.tweens.size) :
    f r' = f r ++ ids.flatMap fun id => g (block id) := by
  induction h with
  | nil => exact (List.append_nil _).symm
  | @cons r r' id ids completed _ ih =>
    have after : engine.after r (.complete id) = (r.marked id).append (block id) := by
      rw [Engine.after, Operation.perform, state_answer]
      exact congrArg Prod.snd completed
    have consistent' : ((r.marked id).append (block id)).Consistent :=
      after ▸ consistent.after (.complete id)
    have le' : n ≤ ((r.marked id).append (block id)).tweens.size := by
      rw [size_append, size_marked]
      omega
    rw [ih consistent' (fun i hi => known i (List.mem_cons_of_mem id hi)) le',
      step r (block id) id consistent (known id List.mem_cons_self) le, List.flatMap_cons,
      List.append_assoc]

section inBlocks

variable {answer : Nat → Except Fault Bool} {block : Nat → Recorder} {r r' : Recorder}
  {ids : List Nat}

theorem InBlocks.blank_eq (h : InBlocks answer block r ids r') : r'.blank = r.blank := by
  induction h with
  | nil => rfl
  | @cons r r' id ids _ _ ih => exact ih.trans (r.blank_marked id)

theorem InBlocks.events_prefix (h : InBlocks answer block r ids r') :
    r.events.toList <+: r'.events.toList := by
  induction h with
  | nil => exact List.prefix_rfl
  | @cons r r' id ids _ _ ih =>
    have marked : r.events.toList <+: (r.marked id).events.toList := by
      rw [Recorder.marked]
      split
      · rw [log_finish]
        exact List.prefix_append _ _
      · exact List.prefix_rfl
    refine (marked.trans ?_).trans ih
    rw [append, Array.toList_append]
    exact List.prefix_append _ _

theorem InBlocks.getElem?_eq (h : InBlocks answer block r ids r') {i : Nat}
    (known : i < r.tweens.size) :
    r'.tweens[i]? =
      if i ∈ ids then r.tweens[i]?.map fun t => { t with completed := true } else r.tweens[i]? := by
  induction h with
  | nil => rfl
  | @cons r r' id ids _ _ ih =>
    have below : ((r.marked id).append (block id)).tweens[i]? = (r.marked id).tweens[i]? :=
      Array.getElem?_append_left (by rwa [size_marked])
    have known' : i < ((r.marked id).append (block id)).tweens.size := by
      rw [size_append, size_marked]
      omega
    rw [ih known', below, getElem?_marked]
    by_cases same : id = i
    · simp [same, Function.comp_def]
    · simp [same, Ne.symm same]

end inBlocks

theorem Consistent.callbacks_eq {r : Recorder} (h : r.Consistent) :
    r.callbacks = r.unnumberedEvents.count .callback := by
  rw [h.callbacks, unnumberedEvents, List.count_filter rfl]

/-- What is left of a row of completions if the order is forgotten: the tables and the tweens that
were there are the same, and so is, in some order, what was appended, the numbers of new tweens
aside. -/
structure SameBehind (r r₁ r₂ : Recorder) : Prop where
  tables : r₁.blank = r₂.blank
  tweens : ∀ id < r.tweens.size, r₁.tweens[id]? = r₂.tweens[id]?
  callbacks : r₁.callbacks = r₂.callbacks
  made : (madeFrom r.tweens.size r₁).Perm (madeFrom r.tweens.size r₂)
  events : ((r₁.events.toList.drop r.events.size).filter fun e => !e.isNumbered).Perm
    ((r₂.events.toList.drop r.events.size).filter fun e => !e.isNumbered)
  reads : (r₁.reads.toList.drop r.reads.size).Perm (r₂.reads.toList.drop r.reads.size)

section order

variable {answer : Nat → Except Fault Bool} {block : Nat → Recorder} {r r' r₁ r₂ : Recorder}
  {ids : List Nat} (consistent : r.Consistent)

include consistent

theorem InBlocks.made_eq (h : InBlocks answer block r ids r')
    (known : ∀ id ∈ ids, id < r.tweens.size) :
    madeFrom r.tweens.size r' = ids.flatMap fun id => madeFrom 0 (block id) := by
  have none : madeFrom r.tweens.size r = [] := by
    rw [madeFrom, List.drop_eq_nil_of_le (Nat.le_of_eq Array.length_toList)]
    rfl
  have made := h.lengthens (f := madeFrom r.tweens.size) (fun m e id hm lt le => by
    have le' : r.tweens.size ≤ (m.marked id).tweens.size := by rwa [size_marked]
    rw [madeFrom_append (hm.marked id) le', madeFrom_marked hm lt]) consistent known (Nat.le_refl _)
  rw [made, none, List.nil_append]

theorem InBlocks.unnumberedEvents_eq (h : InBlocks answer block r ids r')
    (known : ∀ id ∈ ids, id < r.tweens.size) :
    r'.unnumberedEvents =
      r.unnumberedEvents ++ ids.flatMap fun id => (block id).unnumberedEvents :=
  h.lengthens (fun m e id _ _ _ => by
    rw [unnumberedEvents_append, unnumberedEvents_marked]) consistent known (Nat.le_refl _)

theorem InBlocks.events_eq (h : InBlocks answer block r ids r')
    (known : ∀ id ∈ ids, id < r.tweens.size) :
    ((r'.events.toList.drop r.events.size).filter fun e => !e.isNumbered) =
      ids.flatMap fun id => (block id).unnumberedEvents := by
  have events := h.unnumberedEvents_eq consistent known
  obtain ⟨added, split⟩ := h.events_prefix
  rw [unnumberedEvents, ← split, List.filter_append] at events
  rw [← split, List.drop_left' (Array.length_toList ..)]
  exact List.append_cancel_left events

theorem InBlocks.reads_eq (h : InBlocks answer block r ids r')
    (known : ∀ id ∈ ids, id < r.tweens.size) :
    r'.reads.toList.drop r.reads.size = ids.flatMap fun id => (block id).reads.toList := by
  have reads := h.lengthens (f := fun r => r.reads.toList) (fun m e id _ _ _ => by
    have kept : (m.marked id).reads = m.reads := by
      rw [marked]
      split <;> rfl
    show ((m.marked id).reads ++ e.reads).toList = _
    rw [kept, Array.toList_append]) consistent known (Nat.le_refl _)
  rw [reads, List.drop_left' (Array.length_toList ..)]

/-- Two rows with the same answers and blocks differ in the order of the blocks only. -/
theorem InBlocks.sameBehind {xs ys : List Nat} (h₁ : InBlocks answer block r xs r₁)
    (h₂ : InBlocks answer block r ys r₂) (perm : xs.Perm ys)
    (known : ∀ id ∈ xs, id < r.tweens.size) (consistent₁ : r₁.Consistent)
    (consistent₂ : r₂.Consistent) : r.SameBehind r₁ r₂ := by
  have known' (id : Nat) (hid : id ∈ ys) : id < r.tweens.size := known id (perm.mem_iff.mpr hid)
  refine ⟨h₁.blank_eq.trans h₂.blank_eq.symm, fun id lt => ?_, ?_, ?_, ?_, ?_⟩
  · rw [h₁.getElem?_eq lt, h₂.getElem?_eq lt]
    simp only [perm.mem_iff]
  · rw [consistent₁.callbacks_eq, consistent₂.callbacks_eq,
      h₁.unnumberedEvents_eq consistent known, h₂.unnumberedEvents_eq consistent known']
    exact ((perm.flatMap_right _).append_left _).count_eq _
  · rw [h₁.made_eq consistent known, h₂.made_eq consistent known']
    exact perm.flatMap_right _
  · rw [h₁.events_eq consistent known, h₂.events_eq consistent known']
    exact perm.flatMap_right _
  · rw [h₁.reads_eq consistent known, h₂.reads_eq consistent known']
    exact perm.flatMap_right _

end order

end Recorder

/-- Tweens may be completed in any order. After any session, completing tweens that are there one
after the other gives each the same answer in both orders and appends the same block right behind its
completion, and what was there before does not show the order. -/
theorem complete_perm (ops : List Operation) {xs ys : List Nat} (perm : xs.Perm ys)
    (nodup : xs.Nodup) (known : ∀ id ∈ xs, id < (Recorder.engine.run {} ops).tweens.size) :
    let r := Recorder.engine.run {} ops
    let r₁ := Recorder.engine.run r (xs.map .complete)
    let r₂ := Recorder.engine.run r (ys.map .complete)
    (∃ answer block, Recorder.InBlocks answer block r xs r₁ ∧
      Recorder.InBlocks answer block r ys r₂) ∧
    r.SameBehind r₁ r₂ := by
  intro r r₁ r₂
  have consistent : r.Consistent := Recorder.consistent_empty.run ops
  have known' (id : Nat) (hid : id ∈ ys) : id < r.tweens.size := known id (perm.mem_iff.mpr hid)
  have row₁ := consistent.inBlocks nodup known
  have row₂ := consistent.inBlocks (perm.nodup_iff.mp nodup) known'
  have same := row₁.sameBehind consistent row₂ perm known (consistent.run _) (consistent.run _)
  exact ⟨⟨r.answer, r.block, row₁, row₂⟩, same⟩

/-- Two tweens whose continuations make tweens, one of them after a fault. -/
theorem complete_perm_two :
    let body := Statement.block [.expr (.tween ⟨.alpha, "A", [.variable "b", .variable "t"], []⟩),
      .expr (.setActive [])]
    let chain := Chain.mk .alpha "A" [.variable "a", .number 1] [.andThen body, .andThen body]
    let ops := [Operation.evaluate [] (.block [.expr (.tween chain), .expr (.tween chain)])]
    let r := Recorder.engine.run {} ops
    let r₁ := Recorder.engine.run r ([0, 1].map .complete)
    let r₂ := Recorder.engine.run r ([1, 0].map .complete)
    [0, 1].Perm [1, 0] ∧ [0, 1].Nodup ∧ (∀ id ∈ [0, 1], id < r.tweens.size) ∧
    (∃ answer block, Recorder.InBlocks answer block r [0, 1] r₁ ∧
      Recorder.InBlocks answer block r [1, 0] r₂) ∧
    r.SameBehind r₁ r₂ := by
  intro body chain ops r r₁ r₂
  have perm : [0, 1].Perm [1, 0] := .swap 1 0 []
  have nodup : [0, 1].Nodup := by decide
  have known : ∀ id ∈ [0, 1], id < r.tweens.size := by decide +kernel
  exact ⟨perm, nodup, known, complete_perm ops perm nodup known⟩

end TweenScript
