import Mathlib.Data.List.Infix
import TweenScript.Ease

/-!
# The easing catalogue

The link names of easings are the mark, a mode and a family of the tables, put together
(`Ease.named?_eq_some_iff`), and each of them in one way only (`Ease.join_injective`). Taking off the
first mode that fits finds every one of them: of two modes that fit one is the beginning of the other,
which goes on with a mode, as no family does; and the longer one stands first in its table.
-/

namespace TweenScript

namespace Ease

variable {m m' : String × EaseMode} {f f' : String × EaseFamily}

/-! ## The tables -/

theorem mem_modes (mode : EaseMode) : (mode.name, mode) ∈ modes := by
  cases mode <;> decide

theorem mem_families (family : EaseFamily) : (family.name, family) ∈ families := by
  cases family <;> decide

theorem modes_longest_first : modes.Pairwise fun m m' => ¬ m.1.toList <+: m'.1.toList := by
  decide

theorem exists_mode_behind : ∀ m ∈ modes, ∀ m' ∈ modes, m.1.toList <+: m'.1.toList →
    m = m' ∨ ∃ more ∈ modes, m'.1.toList = m.1.toList ++ more.1.toList := by
  decide

theorem not_mode_prefix_family : ∀ m ∈ modes, ∀ f ∈ families, ¬ m.1.toList <+: f.1.toList := by
  decide

theorem lookup_families : ∀ f ∈ families, families.lookup f.1 = some f.2 := by
  decide

/-! ## Modes that fit -/

theorem mode_eq_of_fits (hm : m ∈ modes) (hm' : m' ∈ modes) (hf : f ∈ families)
    (longer : m.1.toList <+: m'.1.toList) (fits : m'.1.toList <+: m.1.toList ++ f.1.toList) :
    m = m' := by
  obtain same | ⟨more, hmore, split⟩ := exists_mode_behind m hm m' hm' longer
  · exact same
  · rw [split, List.prefix_append_right_inj] at fits
    exact absurd fits (not_mode_prefix_family more hmore f hf)

theorem findSome?_modes (hm : m ∈ modes) (hf : f ∈ families) :
    (modes.findSome? fun m' =>
      (m'.1.toList.isPrefixOf? (m.1.toList ++ f.1.toList)).map (m'.2, ·)) =
    some (m.2, f.1.toList) := by
  obtain ⟨before, after, split⟩ := List.append_of_mem hm
  have ordered := modes_longest_first
  rw [split, List.pairwise_append] at ordered
  refine List.findSome?_eq_some_iff.mpr ⟨before, m, after, split, ?_, fun m' mem => ?_⟩
  · rw [List.isPrefixOf?_eq_some_iff_append_eq.mpr rfl]
    rfl
  · have hm' : m' ∈ modes := split ▸ List.mem_append_left _ mem
    have apart : ¬ m'.1.toList <+: m.1.toList := ordered.2.2 m' mem m List.mem_cons_self
    rw [Option.map_eq_none_iff, Option.eq_none_iff_forall_ne_some]
    intro rest found
    have fits : m'.1.toList <+: m.1.toList ++ f.1.toList :=
      ⟨rest, List.isPrefixOf?_eq_some_iff_append_eq.mp found⟩
    obtain shorter | longer :=
      List.prefix_or_prefix_of_prefix fits (List.prefix_append m.1.toList f.1.toList)
    · exact apart shorter
    · exact apart (mode_eq_of_fits hm hm' hf longer fits ▸ List.prefix_refl _)

/-! ## Names -/

theorem toList_join (m f : String) :
    (mark ++ m ++ f).toList = mark.toList ++ (m.toList ++ f.toList) := by
  simp

/-- A link name of an easing comes apart in one way only. -/
theorem join_injective (hm : m ∈ modes) (hm' : m' ∈ modes) (hf : f ∈ families) (hf' : f' ∈ families)
    (same : mark ++ m.1 ++ f.1 = mark ++ m'.1 ++ f'.1) : m = m' ∧ f = f' := by
  have text : m.1.toList ++ f.1.toList = m'.1.toList ++ f'.1.toList := by
    have chars := congrArg String.toList same
    rwa [toList_join, toList_join, List.append_cancel_left_eq] at chars
  have fits : m.1.toList <+: m'.1.toList ++ f'.1.toList := ⟨_, text⟩
  have fits' : m'.1.toList <+: m.1.toList ++ f.1.toList := ⟨_, text.symm⟩
  obtain rfl : m = m' := by
    obtain longer | longer :=
      List.prefix_or_prefix_of_prefix fits (List.prefix_append m'.1.toList f'.1.toList)
    · exact mode_eq_of_fits hm hm' hf longer fits'
    · exact (mode_eq_of_fits hm' hm hf' longer fits).symm
  have spelled : f.1 = f'.1 := String.toList_inj.mp (List.append_cancel_left text)
  have found := lookup_families f hf
  rw [spelled, lookup_families f' hf', Option.some.injEq] at found
  exact ⟨rfl, Prod.ext spelled found.symm⟩

theorem named?_join : ∀ m ∈ modes, ∀ f ∈ families,
    named? (mark ++ m.1 ++ f.1) = some ⟨f.2, m.2⟩ := by
  intro m hm f hf
  have marked : mark.toList.isPrefixOf? (mark ++ m.1 ++ f.1).toList =
      some (m.1.toList ++ f.1.toList) :=
    List.isPrefixOf?_eq_some_iff_append_eq.mpr (toList_join m.1 f.1).symm
  have family : families.lookup (String.ofList f.1.toList) = some f.2 := by
    rw [String.ofList_toList]
    exact lookup_families f hf
  simp only [named?, Option.bind_eq_bind, marked, Option.bind_some, findSome?_modes hm hf, family]
  rfl

theorem join_of_named? {name : String} {e : Ease} (h : named? name = some e) :
    ∃ m ∈ modes, ∃ f ∈ families, name = mark ++ m.1 ++ f.1 ∧ e = ⟨f.2, m.2⟩ := by
  simp only [named?, Option.bind_eq_bind, Option.bind_eq_some_iff] at h
  obtain ⟨afterMark, hmark, ⟨mode, afterMode⟩, hmode, family, hfamily, he⟩ := h
  obtain ⟨m, hm, hm'⟩ := List.exists_of_findSome?_eq_some hmode
  obtain ⟨rest, hrest, hpair⟩ := Option.map_eq_some_iff.mp hm'
  cases hpair
  have htext : name.toList = mark.toList ++ m.1.toList ++ afterMode := by
    rw [List.append_assoc, List.isPrefixOf?_eq_some_iff_append_eq.mp hrest,
      List.isPrefixOf?_eq_some_iff_append_eq.mp hmark]
  obtain ⟨l, r, hl, -⟩ := List.lookup_eq_some_iff.mp hfamily
  refine ⟨m, hm, (String.ofList afterMode, family), ?_, ?_, (Option.some.inj he).symm⟩
  · rw [hl]
    simp
  · apply String.toList_inj.mp
    simp [htext]

/-- The link names of easings are the catalogue's. -/
theorem named?_eq_some_iff {name : String} {e : Ease} :
    named? name = some e ↔
      ∃ m ∈ modes, ∃ f ∈ families, name = mark ++ m.1 ++ f.1 ∧ e = ⟨f.2, m.2⟩ := by
  constructor
  · exact join_of_named?
  · rintro ⟨m, hm, f, hf, rfl, rfl⟩
    exact named?_join m hm f hf

example : named? "EaseInOutInBack" = none := by decide

theorem named?_name (e : Ease) : named? e.name = some e := by
  rw [name]
  exact named?_join (e.mode.name, e.mode) (mem_modes e.mode) (e.family.name, e.family)
    (mem_families e.family)

theorem isMarked_join (m f : String) : isMarked (mark ++ m ++ f) := by
  simp [isMarked]

end Ease

end TweenScript
