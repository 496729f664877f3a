import Mathlib.Data.List.Nodup
import TweenScript.Proofs.Asset.Layout
import TweenScript.Proofs.Json.Writing

/-!
# Assets are read as they were written

The text of an asset with finite values is read as this asset, whatever stands in its strings; the
text of one with a value that is not finite is refused (`Asset.ofText_toText`). Numerals are read in
machine arithmetic, which may miss the number they were written for by a little, so that they are read
back is assumed of the values that are not zero.
-/

namespace TweenScript

namespace Json

theorem hasFields_ofMembers (pairs : List (String × Json)) (h : (pairs.map (·.1)).Nodup) :
    HasFields (pairs.map (·.1)) (.ofMembers pairs) (pairs.map fun p => some p.2) := by
  refine .object (fun m hm => ?_) ?_
  · obtain ⟨p, -, rfl⟩ := List.mem_map.mp hm
    exact Option.some_ne_none _
  · rw [List.forall₂_map_left_iff, List.forall₂_map_right_iff, List.forall₂_same]
    intro p hp
    obtain ⟨before, after, rfl⟩ := List.append_of_mem hp
    rw [List.map_append, List.map_cons, List.nodup_middle, List.nodup_cons, ← List.map_append] at h
    exact fieldOf_append p.2 fun q hq he => h.1 (he ▸ List.mem_map_of_mem hq)

/-- The numeral of a number is read as the number. -/
def ReadsBack (v : Float) : Prop :=
  (Style.json.numeral v).value? = some v

theorem readsBack_zero : ReadsBack 0 := by
  unfold ReadsBack
  decide +kernel

theorem readsBack_neg_zero : ReadsBack (-0) := by
  unfold ReadsBack
  decide +kernel

theorem isNumber_ofFloat {v : Float} (finite : v.isFinite) (h : ReadsBack v) :
    IsNumber (.ofFloat v) v := by
  rw [ofFloat, if_pos finite]
  exact ⟨_, rfl, h⟩

theorem noNumber_ofFloat {v : Float} (h : ¬ v.isFinite) : NoNumber (.ofFloat v) := by
  rw [ofFloat, if_neg h]
  exact .wrongType fun _ he => nomatch he

/-! ## What is written can be written -/

theorem writable_ofFloat (v : Float) : Writable (.ofFloat v) := by
  unfold ofFloat
  split
  · exact .number (number_numeral v)
  · exact .null

theorem writable_ofMembers {pairs : List (String × Json)} (h : ∀ p ∈ pairs, Writable p.2) :
    Writable (.ofMembers pairs) := by
  refine .object (fun m hm => ?_) fun m hm => ?_
  · obtain ⟨p, -, rfl⟩ := List.mem_map.mp hm
    exact Option.some_ne_none _
  · obtain ⟨p, hp, rfl⟩ := List.mem_map.mp hm
    exact h p hp

end Json

namespace Asset

open Json

theorem writable_toJson (a : Asset) : Writable a.toJson := by
  refine writable_ofMembers ?_
  simp only [List.forall_mem_cons]
  refine ⟨.array fun item hi => ?_, .array fun item hi => ?_, .string _, fun _ h => nomatch h⟩
  · obtain ⟨e, -, rfl⟩ := List.mem_map.mp hi
    refine writable_ofMembers ?_
    simp only [List.forall_mem_cons]
    exact ⟨.string _, .string _, fun _ h => nomatch h⟩
  · obtain ⟨e, -, rfl⟩ := List.mem_map.mp hi
    refine writable_ofMembers ?_
    simp only [List.forall_mem_cons]
    exact ⟨.string _, writable_ofFloat _, fun _ h => nomatch h⟩

theorem read_toText (a : Asset) : read? a.toText = some a.toJson := by
  have written := Json.Spells.element gap_nil (write_spells (writable_toJson a) 0) gap_nil
  rw [List.nil_append, List.append_nil] at written
  rw [read_eq_some_iff, toText, pretty, String.toList_ofList]
  exact written

/-! ## What is written is read -/

/-- The entries of the name table as they are written. -/
def pathItems (a : Asset) : List Json :=
  a.paths.map fun e => .ofMembers [("name", .ofString e.1), ("path", .ofString e.2)]

/-- The variables as they are written. -/
def valueItems (a : Asset) : List Json :=
  a.values.map fun e => .ofMembers [("name", .ofString e.1), ("value", .ofFloat e.2)]

theorem hasFields_toJson (a : Asset) :
    HasFields keys a.toJson
      [some (.array a.pathItems), some (.array a.valueItems), some (.ofString a.expression)] :=
  hasFields_ofMembers [("object_maps", .array a.pathItems), ("variables", .array a.valueItems),
    ("expression", .ofString a.expression)] (by simp)

theorem hasFields_entry {key : String} (h : key ≠ "name") (name value : Json) :
    HasFields ["name", key] (.ofMembers [("name", name), (key, value)]) [some name, some value] :=
  hasFields_ofMembers [("name", name), (key, value)] (by simp [h.symm])

theorem describes_toJson {a : Asset} (finite : ∀ e ∈ a.values, e.2.isFinite)
    (h : ∀ e ∈ a.values, ReadsBack e.2) : Describes a.toJson a := by
  refine ⟨_, _, _, hasFields_toJson a, .array ?_, .array ?_, rfl⟩
  · rw [pathItems, List.forall₂_map_left_iff, List.forall₂_same]
    intro e _
    exact ⟨_, _, hasFields_entry (by decide) _ _, rfl, rfl⟩
  · rw [valueItems, List.forall₂_map_left_iff, List.forall₂_same]
    intro e he
    exact ⟨_, _, hasFields_entry (by decide) _ _, rfl, isNumber_ofFloat (finite e he) (h e he)⟩

theorem flawed_toJson {a : Asset} {e : String × Float} (he : e ∈ a.values) (h : ¬ e.2.isFinite) :
    Flawed a.toJson := by
  have entry : NoEntry "value" NoNumber
      (.ofMembers [("name", .ofString e.1), ("value", .ofFloat e.2)]) :=
    .value (hasFields_entry (by decide) _ _) (noNumber_ofFloat h)
  exact .values (hasFields_toJson a) (.entry (List.mem_map_of_mem he) entry)

/-- **Assets are read as they were written**: with finite values an asset comes back as it was, its
zeros with their signs, and with any other value its text is refused. The values are assumed to be read
back but for the zeros, which are. -/
theorem ofText_toText (a : Asset)
    (h : ∀ e ∈ a.values, e.2.isFinite → e.2 ≠ 0 → e.2 ≠ -0 → ReadsBack e.2) :
    ofText a.toText =
      if ∀ e ∈ a.values, e.2.isFinite then .ok a else .error (.asset .notJson) := by
  have readsBack (e : String × Float) (he : e ∈ a.values) (finite : e.2.isFinite) :
      ReadsBack e.2 := by
    by_cases zero : e.2 = 0
    · rw [zero]
      exact readsBack_zero
    · by_cases negative : e.2 = -0
      · rw [negative]
        exact readsBack_neg_zero
      · exact h e he finite zero negative
  have read : read? a.toText >>= ofJson? = ofJson? a.toJson := by
    rw [read_toText]
    rfl
  rw [ofText, read]
  split_ifs with finite
  · rw [ofJson_eq_some_iff.mpr (describes_toJson finite fun e he => readsBack e he (finite e he))]
  · obtain ⟨e, he, notFinite⟩ : ∃ e ∈ a.values, ¬ e.2.isFinite := by
      simpa only [not_forall, exists_prop] using finite
    rw [ofJson_eq_none_iff.mpr (flawed_toJson he notFinite)]

theorem ofText_toText_half :
    ofText (toText ⟨⟨[("", "\"\\\n\x01😀")], [("half", 0.5), ("zero", -0)]⟩, "half"⟩) =
        .ok ⟨⟨[("", "\"\\\n\x01😀")], [("half", 0.5), ("zero", -0)]⟩, "half"⟩ ∧
      ofText (toText ⟨⟨[], [("top", 1 / 0)]⟩, ""⟩) = .error (.asset .notJson) := by
  have half : ReadsBack 0.5 := by
    unfold ReadsBack
    decide +kernel
  constructor
  · refine (ofText_toText _ ?_).trans (if_pos ?_)
    · simp only [List.forall_mem_cons]
      exact ⟨fun _ _ _ => half, fun _ _ negative => absurd rfl negative, fun _ h => nomatch h⟩
    · simp only [List.forall_mem_cons]
      exact ⟨by decide +kernel, by decide +kernel, fun _ h => nomatch h⟩
  · have infinite : ¬ (1 / 0 : Float).isFinite := by decide +kernel
    refine (ofText_toText _ ?_).trans (if_neg ?_)
    · simp only [List.forall_mem_cons]
      exact ⟨fun finite => absurd finite infinite, fun _ h => nomatch h⟩
    · simp only [List.forall_mem_cons]
      exact fun h => infinite h.1

end Asset

end TweenScript
