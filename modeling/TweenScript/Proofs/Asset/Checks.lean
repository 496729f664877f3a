import Mathlib.Data.List.DropRight
import Mathlib.Data.List.Nodup
import TweenScript.Asset
import TweenScript.Proofs.Arity

/-!
# Which assets are refused

The entries of a table are checked one after the other, each with the names of those before it. An
asset passes exactly if in each table the names are visible and pairwise different and the values are
finite (`validate_eq_ok_iff`); otherwise it is refused for what is wrong with the first entry that
does not pass, names for objects coming before variables (`validate_eq_error_iff`).
-/

namespace TweenScript

/-! ## Names with nothing to see -/

theorem trimBlanks_eq_nil_iff {cs : List Char} : trimBlanks cs = [] ↔ ∀ c ∈ cs, isBlank c := by
  have dropped : (∀ c ∈ cs.dropWhile isBlank, isBlank c) ↔ ∀ c ∈ cs, isBlank c := by
    induction cs with
    | nil => rfl
    | cons c cs ih =>
      by_cases h : isBlank c
      · rw [List.dropWhile_cons_of_pos h, ih, List.forall_mem_cons]
        simp [h]
      · rw [List.dropWhile_cons_of_neg h]
  rw [← dropped]
  exact List.rdropWhile_eq_nil_iff

theorem isBlankName_iff {name : String} : Asset.isBlankName name ↔ trim name = "" := by
  rw [Asset.isBlankName, List.all_eq_true, ← trimBlanks_eq_nil_iff, trim, ← String.ofList_nil,
    String.ofList_inj]

namespace Asset

/-! ## Tables -/

section tables

variable {α : Type}

/-- No entry has anything wrong with it, `O` saying what is wrong with an entry behind others. -/
def Sound (O : List (String × α) → String × α → AssetCause → Prop) (entries : List (String × α)) :
    Prop :=
  ∀ before e after cause, entries = before ++ e :: after → ¬ O before e cause

/-- The first entry that has something wrong with it is refused for `cause`. -/
def FirstOffence (O : List (String × α) → String × α → AssetCause → Prop)
    (entries : List (String × α)) (cause : AssetCause) : Prop :=
  ∃ before e after, entries = before ++ e :: after ∧ Sound O before ∧ O before e cause

/-- The names seen are those of the entries. -/
def NamesOf (entries : List (String × α)) (seen : List String) : Prop :=
  ∀ name, name ∈ seen ↔ name ∈ entries.map Prod.fst

theorem NamesOf.concat {entries : List (String × α)} {seen : List String}
    (h : NamesOf entries seen) (e : String × α) : NamesOf (entries ++ [e]) (e.1 :: seen) := by
  intro name
  rw [List.mem_cons, h name, List.map_append, List.mem_append, List.map_singleton,
    List.mem_singleton, or_comm]

/-- A check goes from entry to entry, up to the first one that has something wrong with it. -/
structure Checks (check : List String → List (String × α) → Except Fault Unit)
    (O : List (String × α) → String × α → AssetCause → Prop) : Prop where
  done : ∀ seen, check seen [] = .ok ()
  stop : ∀ {before seen e cause} after, NamesOf before seen → O before e cause →
    check seen (e :: after) = .error (.asset cause)
  pass : ∀ {before seen e} after, NamesOf before seen → (∀ cause, ¬ O before e cause) →
    check seen (e :: after) = check (e.1 :: seen) after

variable {O : List (String × α) → String × α → AssetCause → Prop} {entries : List (String × α)}

theorem sound_concat_iff {e : String × α} :
    Sound O (entries ++ [e]) ↔ Sound O entries ∧ ∀ cause, ¬ O entries e cause := by
  constructor
  · intro sound
    constructor
    · intro before e' after cause split
      apply sound before e' (after ++ [e]) cause
      rw [split, List.append_assoc, List.cons_append]
    · intro cause
      exact sound entries e [] cause rfl
  · rintro ⟨sound, last⟩ before e' after cause split
    rcases List.eq_nil_or_concat after with rfl | ⟨after, e'', rfl⟩
    · obtain ⟨rfl, same⟩ := List.append_inj' split rfl
      obtain rfl := List.head_eq_of_cons_eq same
      exact last cause
    · rw [List.concat_eq_append, ← List.cons_append, ← List.append_assoc] at split
      obtain ⟨rfl, -⟩ := List.append_inj' split rfl
      exact sound before e' after cause rfl

theorem sound_or_firstOffence (O : List (String × α) → String × α → AssetCause → Prop)
    (entries : List (String × α)) : Sound O entries ∨ ∃ cause, FirstOffence O entries cause := by
  -- From the end of the list, since what is wrong with an entry depends on those before it.
  induction entries using List.reverseRecOn with
  | nil =>
    left
    intro before e after cause split
    simp at split
  | append_singleton entries e ih =>
    rcases ih with sound | ⟨cause, before, e', after, rfl, sound, wrong⟩
    · by_cases wrong : ∃ cause, O entries e cause
      · obtain ⟨cause, wrong⟩ := wrong
        exact .inr ⟨cause, entries, e, [], rfl, sound, wrong⟩
      · left
        rw [sound_concat_iff]
        exact ⟨sound, not_exists.mp wrong⟩
    · exact .inr ⟨cause, before, e', after ++ [e], by simp, sound, wrong⟩

namespace Checks

variable {check : List String → List (String × α) → Except Fault Unit} {cause : AssetCause}

theorem passes (h : Checks check O) (sound : Sound O entries) :
    ∃ seen, NamesOf entries seen ∧ ∀ after, check [] (entries ++ after) = check seen after := by
  induction entries using List.reverseRecOn with
  | nil => exact ⟨[], fun name => Iff.rfl, fun after => rfl⟩
  | append_singleton entries e ih =>
    obtain ⟨sound, last⟩ := sound_concat_iff.mp sound
    obtain ⟨seen, names, passed⟩ := ih sound
    refine ⟨e.1 :: seen, names.concat e, ?_⟩
    intro after
    rw [List.append_assoc, List.singleton_append, passed, h.pass after names last]

theorem of_sound (h : Checks check O) (sound : Sound O entries) : check [] entries = .ok () := by
  obtain ⟨seen, -, passed⟩ := h.passes sound
  have whole := passed []
  rw [List.append_nil] at whole
  rw [whole, h.done]

theorem of_firstOffence (h : Checks check O) (first : FirstOffence O entries cause) :
    check [] entries = .error (.asset cause) := by
  obtain ⟨before, e, after, rfl, sound, wrong⟩ := first
  obtain ⟨seen, names, passed⟩ := h.passes sound
  rw [passed, h.stop after names wrong]

theorem eq_ok_iff (h : Checks check O) : check [] entries = .ok () ↔ Sound O entries := by
  constructor
  · intro passed
    rcases sound_or_firstOffence O entries with sound | ⟨cause, first⟩
    · exact sound
    · rw [h.of_firstOffence first] at passed
      cases passed
  · exact h.of_sound

theorem eq_error_iff (h : Checks check O) {f : Fault} :
    check [] entries = .error f ↔ ∃ cause, f = .asset cause ∧ FirstOffence O entries cause := by
  constructor
  · intro refused
    rcases sound_or_firstOffence O entries with sound | ⟨cause, first⟩
    · rw [h.of_sound sound] at refused
      cases refused
    · rw [h.of_firstOffence first] at refused
      cases refused
      exact ⟨cause, rfl, first⟩
  · rintro ⟨cause, rfl, first⟩
    exact h.of_firstOffence first

end Checks

end tables

/-! ## What may be wrong with an entry -/

/-- What is wrong with a name for an object behind the entries `before`. -/
inductive PathOffence (before : List (String × String)) : String × String → AssetCause → Prop where
  | blank {name path : String} (h : trim name = "") :
    PathOffence before (name, path) .blankPathName
  | duplicate {name path : String} (visible : trim name ≠ "") (h : name ∈ before.map Prod.fst) :
    PathOffence before (name, path) (.duplicatePathName name)

/-- What is wrong with a variable behind the entries `before`. -/
inductive VariableOffence (before : List (String × Float)) : String × Float → AssetCause → Prop where
  | blank {name : String} {value : Float} (h : trim name = "") :
    VariableOffence before (name, value) .blankVariableName
  | duplicate {name : String} {value : Float} (visible : trim name ≠ "")
    (h : name ∈ before.map Prod.fst) :
    VariableOffence before (name, value) (.duplicateVariableName name)
  | notFinite {name : String} {value : Float} (visible : trim name ≠ "")
    (new : name ∉ before.map Prod.fst) (h : ¬ value.isFinite) :
    VariableOffence before (name, value) (.notFinite name)

theorem no_pathOffence_iff {before : List (String × String)} {e : String × String} :
    (∀ cause, ¬ PathOffence before e cause) ↔ trim e.1 ≠ "" ∧ e.1 ∉ before.map Prod.fst := by
  obtain ⟨name, path⟩ := e
  constructor
  · intro fine
    have visible : trim name ≠ "" := fun h => fine _ (.blank h)
    exact ⟨visible, fun h => fine _ (.duplicate visible h)⟩
  · rintro ⟨visible, new⟩ cause (⟨h⟩ | ⟨-, h⟩)
    · exact visible h
    · exact new h

theorem no_variableOffence_iff {before : List (String × Float)} {e : String × Float} :
    (∀ cause, ¬ VariableOffence before e cause) ↔
      trim e.1 ≠ "" ∧ e.1 ∉ before.map Prod.fst ∧ e.2.isFinite := by
  obtain ⟨name, value⟩ := e
  constructor
  · intro fine
    have visible : trim name ≠ "" := fun h => fine _ (.blank h)
    have new : name ∉ before.map Prod.fst := fun h => fine _ (.duplicate visible h)
    exact ⟨visible, new, Classical.not_not.mp fun h => fine _ (.notFinite visible new h)⟩
  · rintro ⟨visible, new, finite⟩ cause (⟨h⟩ | ⟨-, h⟩ | ⟨-, -, h⟩)
    · exact visible h
    · exact new h
    · exact h finite

theorem checks_paths : Checks checkPaths PathOffence where
  done _ := rfl
  stop := by
    rintro before seen ⟨name, path⟩ cause after names (⟨h⟩ | ⟨visible, h⟩)
    · rw [checkPaths, if_pos (isBlankName_iff.mpr h)]
    · rw [checkPaths, if_neg (mt isBlankName_iff.mp visible), if_pos ((names name).mpr h)]
  pass := by
    rintro before seen ⟨name, path⟩ after names fine
    obtain ⟨visible, new⟩ := no_pathOffence_iff.mp fine
    rw [checkPaths, if_neg (mt isBlankName_iff.mp visible), if_neg (mt (names name).mp new)]

theorem checks_variables : Checks checkVariables VariableOffence where
  done _ := rfl
  stop := by
    rintro before seen ⟨name, value⟩ cause after names (⟨h⟩ | ⟨visible, h⟩ | ⟨visible, new, h⟩)
    · rw [checkVariables, if_pos (isBlankName_iff.mpr h)]
    · rw [checkVariables, if_neg (mt isBlankName_iff.mp visible), if_pos ((names name).mpr h)]
    · rw [checkVariables, if_neg (mt isBlankName_iff.mp visible), if_neg (mt (names name).mp new),
        if_pos (by simp [h])]
  pass := by
    rintro before seen ⟨name, value⟩ after names fine
    obtain ⟨visible, new, finite⟩ := no_variableOffence_iff.mp fine
    rw [checkVariables, if_neg (mt isBlankName_iff.mp visible), if_neg (mt (names name).mp new),
      if_neg (by simp [finite])]

/-! ## Assets -/

/-- In each table the names are visible and pairwise different, and the values are finite. -/
structure Valid (a : Asset) : Prop where
  visiblePaths : ∀ e ∈ a.paths, trim e.1 ≠ ""
  differentPaths : (a.paths.map Prod.fst).Nodup
  visibleVariables : ∀ e ∈ a.values, trim e.1 ≠ ""
  differentVariables : (a.values.map Prod.fst).Nodup
  finite : ∀ e ∈ a.values, e.2.isFinite

/-- What is wrong with the first entry that does not pass, variables coming after the names for
objects. -/
inductive Offends (a : Asset) : AssetCause → Prop where
  | path {cause : AssetCause} (first : FirstOffence PathOffence a.paths cause) : Offends a cause
  | variable {cause : AssetCause} (paths : Sound PathOffence a.paths)
    (first : FirstOffence VariableOffence a.values cause) : Offends a cause

theorem nodup_concat_iff {α : Type} {entries : List (String × α)} {e : String × α} :
    ((entries ++ [e]).map Prod.fst).Nodup ↔
      (entries.map Prod.fst).Nodup ∧ e.1 ∉ entries.map Prod.fst := by
  rw [List.map_append, List.map_singleton, ← List.concat_eq_append, List.nodup_concat, and_comm]

theorem sound_paths_iff {entries : List (String × String)} :
    Sound PathOffence entries ↔ (∀ e ∈ entries, trim e.1 ≠ "") ∧ (entries.map Prod.fst).Nodup := by
  induction entries using List.reverseRecOn with
  | nil => simp [Sound]
  | append_singleton entries e ih =>
    rw [sound_concat_iff, ih, no_pathOffence_iff, nodup_concat_iff, List.forall_mem_append,
      List.forall_mem_singleton]
    exact and_and_and_comm

theorem sound_variables_iff {entries : List (String × Float)} :
    Sound VariableOffence entries ↔ (∀ e ∈ entries, trim e.1 ≠ "") ∧
      (entries.map Prod.fst).Nodup ∧ ∀ e ∈ entries, e.2.isFinite := by
  induction entries using List.reverseRecOn with
  | nil => simp [Sound]
  | append_singleton entries e ih =>
    rw [sound_concat_iff, ih, no_variableOffence_iff, nodup_concat_iff]
    simp only [List.forall_mem_append, List.forall_mem_singleton]
    exact and_and_and_comm.trans (and_congr_right' and_and_and_comm)

/-- The checks pass exactly the valid assets. -/
theorem validate_eq_ok_iff {a : Asset} : a.validate = .ok () ↔ a.Valid := by
  rw [validate, bind_eq_ok_iff]
  constructor
  · rintro ⟨⟨⟩, paths, values⟩
    obtain ⟨visible, different⟩ := sound_paths_iff.mp (checks_paths.eq_ok_iff.mp paths)
    obtain ⟨visible', different', finite⟩ :=
      sound_variables_iff.mp (checks_variables.eq_ok_iff.mp values)
    exact ⟨visible, different, visible', different', finite⟩
  · intro valid
    have paths := sound_paths_iff.mpr ⟨valid.visiblePaths, valid.differentPaths⟩
    have values := sound_variables_iff.mpr
      ⟨valid.visibleVariables, valid.differentVariables, valid.finite⟩
    exact ⟨(), checks_paths.of_sound paths, checks_variables.of_sound values⟩

/-- An asset that does not pass is refused for what is wrong with its first entry that does not. -/
theorem validate_eq_error_iff {a : Asset} {f : Fault} :
    a.validate = .error f ↔ ∃ cause, f = .asset cause ∧ a.Offends cause := by
  rw [validate, bind_eq_error_iff, checks_paths.eq_error_iff]
  constructor
  · rintro (⟨cause, rfl, first⟩ | ⟨⟨⟩, passed, refused⟩)
    · exact ⟨cause, rfl, .path first⟩
    · obtain ⟨cause, rfl, first⟩ := checks_variables.eq_error_iff.mp refused
      exact ⟨cause, rfl, .variable (checks_paths.eq_ok_iff.mp passed) first⟩
  · rintro ⟨cause, rfl, first | ⟨paths, first⟩⟩
    · exact .inl ⟨cause, rfl, first⟩
    · exact .inr ⟨(), checks_paths.of_sound paths, checks_variables.of_firstOffence first⟩

end Asset

end TweenScript
