import TweenScript.Proofs.Asset.Checks
import TweenScript.Proofs.Session.Matching

/-!
# The order of the entries of an asset

Of several entries for a name the first one counts, so the order of a table matters exactly if two of
its entries for one name differ. In an asset that passes its checks there is one entry for a name, and
nothing depends on the order, neither now nor later (`order_irrelevant`).
-/

namespace TweenScript

/-! ## Entries for a name -/

section entries

variable {α : Type} {entries entries' : List (String × α)} {name : String}

theorem lookup_eq_some_iff_mem (different : (entries.map Prod.fst).Nodup) {a : α} :
    entries.lookup name = some a ↔ (name, a) ∈ entries := by
  rw [List.lookup_eq_some_iff]
  constructor
  · rintro ⟨before, after, rfl, -⟩
    exact List.mem_append_right before List.mem_cons_self
  · intro mem
    obtain ⟨before, after, rfl⟩ := List.append_of_mem mem
    refine ⟨before, after, rfl, ?_⟩
    intro e he
    rw [List.map_append, List.map_cons] at different
    have apart := (List.nodup_append.mp different).2.2
    have ne := apart e.1 (List.mem_map_of_mem he) name List.mem_cons_self
    exact bne_iff_ne.mpr ne.symm

theorem lookup_perm (different : (entries.map Prod.fst).Nodup) (perm : entries'.Perm entries)
    (name : String) : entries'.lookup name = entries.lookup name := by
  have different' : (entries'.map Prod.fst).Nodup := (perm.map Prod.fst).nodup_iff.mpr different
  ext a
  rw [lookup_eq_some_iff_mem different, lookup_eq_some_iff_mem different', perm.mem_iff]

theorem exists_perm_lookup {a : α} (mem : (name, a) ∈ entries) :
    ∃ entries' : List (String × α), entries'.Perm entries ∧ entries'.lookup name = some a := by
  obtain ⟨before, after, rfl⟩ := List.append_of_mem mem
  exact ⟨(name, a) :: (before ++ after), List.perm_middle.symm, List.lookup_cons_self⟩

/-- If two entries for a name differ, one of them is not found, and can be put in front. -/
theorem exists_perm_lookup_ne {a b : α} (ha : (name, a) ∈ entries) (hb : (name, b) ∈ entries)
    (ne : a ≠ b) :
    ∃ (entries' : List (String × α)) (found found' : α), entries'.Perm entries ∧
      entries.lookup name = some found ∧ entries'.lookup name = some found' ∧ found' ≠ found := by
  have isSome : (entries.lookup name).isSome :=
    List.lookup_isSome_iff.mpr ⟨(name, a), ha, beq_self_eq_true name⟩
  obtain ⟨found, hfound⟩ := Option.isSome_iff_exists.mp isSome
  -- Of two different values at least one is not the one found.
  by_cases first : a = found
  · obtain ⟨entries', perm, hb⟩ := exists_perm_lookup hb
    exact ⟨entries', found, b, perm, hfound, hb, first ▸ ne.symm⟩
  · obtain ⟨entries', perm, ha⟩ := exists_perm_lookup ha
    exact ⟨entries', found, a, perm, hfound, ha, first⟩

end entries

namespace Asset

/-- The asset is the other one with the entries of its tables in another order. -/
structure Reorders (b a : Asset) : Prop where
  paths : b.paths.Perm a.paths
  values : b.values.Perm a.values
  expression : b.expression = a.expression

/-! ## Checks and lookups -/

section reorders

variable {a b : Asset}

theorem Valid.reorder (valid : a.Valid) (h : b.Reorders a) : b.Valid where
  visiblePaths e he := valid.visiblePaths e (h.paths.mem_iff.mp he)
  differentPaths := (h.paths.map Prod.fst).nodup_iff.mpr valid.differentPaths
  visibleVariables e he := valid.visibleVariables e (h.values.mem_iff.mp he)
  differentVariables := (h.values.map Prod.fst).nodup_iff.mpr valid.differentVariables
  finite e he := valid.finite e (h.values.mem_iff.mp he)

theorem Valid.path_eq (valid : a.Valid) (h : b.Reorders a) (name : String) :
    b.path name = a.path name := by
  rw [NameTable.path, NameTable.path, lookup_perm valid.differentPaths h.paths]

theorem Valid.value?_eq (valid : a.Valid) (h : b.Reorders a) (name : String) :
    b.value? name = a.value? name :=
  lookup_perm valid.differentVariables h.values name

/-! ## Runs -/

theorem Valid.agrees (valid : a.Valid) (h : b.Reorders a) (scope : Scope) :
    Scope.Agrees (a.toNameTable :: scope) (b.toNameTable :: scope) :=
  (Scope.Agrees.refl scope).cons (fun name => (valid.path_eq h name).symm)
    fun name => (valid.value?_eq h name).symm

theorem Valid.runAsset_related (valid : a.Valid) (h : b.Reorders a) (scope : Scope) :
    Related (Recorder.Matches Continuation.Agrees)
      ((Operation.runAsset scope a).perform Recorder.engine).run
      ((Operation.runAsset scope b).perform Recorder.engine).run
      (Alike (Recorder.Matches Continuation.Agrees)) := by
  have checked : b.validate = a.validate := by
    rw [validate_eq_ok_iff.mpr valid, validate_eq_ok_iff.mpr (valid.reorder h)]
  have compiled : b.compile = a.compile := by
    rw [compile, compile, h.expression]
  have same := Recorder.agrees_simulates (valid.agrees h scope)
  refine Related.mono ?_ fun _ _ _ _ => outcomes_alike_iff.mp
  apply Related.action_done Answer.done
  exact Asset.run_related same checked compiled

end reorders

/-- The order of the entries does not matter to an asset that passes its checks: in any other order
they pass too, every lookup has the same answer, and whether the one asset is run or the other, the
outcome is the same and so is the recorder, but for the scopes of what waits, which agree; and that
stays so whatever is done later. It does matter if two entries for a name differ: then the lookup of
the name has another answer in some other order. -/
theorem order_irrelevant (a : Asset) :
    (a.validate = .ok () → ∀ b : Asset, b.Reorders a →
      b.validate = .ok () ∧
      (∀ name, b.path name = a.path name ∧ b.value? name = a.value? name) ∧
      ∀ (scope : Scope) (later : List Operation) (r : Recorder),
        List.Forall₂ (SameStep (Recorder.Matches Continuation.Agrees))
          (Recorder.engine.trace r (.runAsset scope a :: later))
          (Recorder.engine.trace r (.runAsset scope b :: later))) ∧
    (∀ name path path', (name, path) ∈ a.paths → (name, path') ∈ a.paths → path ≠ path' →
      ∃ b : Asset, b.Reorders a ∧ b.path name ≠ a.path name) ∧
    ∀ name value value', (name, value) ∈ a.values → (name, value') ∈ a.values → value ≠ value' →
      ∃ b : Asset, b.Reorders a ∧ b.value? name ≠ a.value? name := by
  refine ⟨fun passed b h => ?_, fun name path path' mem mem' ne => ?_,
    fun name value value' mem mem' ne => ?_⟩
  · have valid := validate_eq_ok_iff.mp passed
    refine ⟨validate_eq_ok_iff.mpr (valid.reorder h), fun name => ?_, fun scope later r => ?_⟩
    · exact ⟨valid.path_eq h name, valid.value?_eq h name⟩
    · have agrees := Recorder.engine_agrees Continuation.Agrees.refl Recorder.resumeAlike_agrees
      have first := valid.runAsset_related h scope
      refine Engine.trace_related (.cons first ?_) (Recorder.Matches.refl .refl r)
      exact List.forall₂_same.mpr fun op _ => agrees.perform op
  · obtain ⟨paths, found, found', perm, h, h', other⟩ := exists_perm_lookup_ne mem mem' ne
    refine ⟨{ a with paths }, ⟨perm, .refl _, rfl⟩, ?_⟩
    rw [NameTable.path, NameTable.path, h, h']
    exact other
  · obtain ⟨values, found, found', perm, h, h', other⟩ := exists_perm_lookup_ne mem mem' ne
    refine ⟨{ a with values }, ⟨.refl _, perm, rfl⟩, ?_⟩
    rw [NameTable.value?, NameTable.value?, h, h']
    exact fun same => other (Option.some.inj same)

/-- Two names and two variables, in both orders, and a name that has two paths. -/
theorem order_irrelevant_swapped :
    let a : Asset := ⟨⟨[("Title", "Canvas/Title"), ("Icon", "Canvas/Icon")],
      [("speed", 0.5), ("rate", 2)]⟩, "A(Title, speed);"⟩
    let b : Asset := ⟨⟨[("Icon", "Canvas/Icon"), ("Title", "Canvas/Title")],
      [("rate", 2), ("speed", 0.5)]⟩, "A(Title, speed);"⟩
    let twice : Asset := ⟨⟨[("Title", "Canvas/Title"), ("Title", "Canvas/Icon")],
      [("speed", 0.5), ("speed", 2)]⟩, ""⟩
    a.validate = .ok () ∧ b.Reorders a ∧ b.validate = .ok () ∧
    (∃ c : Asset, c.Reorders twice ∧ c.path "Title" ≠ twice.path "Title") ∧
    ∃ c : Asset, c.Reorders twice ∧ c.value? "speed" ≠ twice.value? "speed" := by
  intro a b twice
  have passed : a.validate = .ok () := by decide +kernel
  have swapped : b.Reorders a := ⟨.swap _ _ _, .swap _ _ _, rfl⟩
  obtain ⟨-, paths, values⟩ := order_irrelevant twice
  refine ⟨passed, swapped, ((order_irrelevant a).1 passed b swapped).1, ?_, ?_⟩
  · exact paths "Title" "Canvas/Title" "Canvas/Icon" (by simp [twice]) (by simp [twice]) (by decide)
  · exact values "speed" 0.5 2 (by simp [twice]) (by simp [twice]) (by decide +kernel)

end Asset

end TweenScript
