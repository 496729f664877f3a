import Mathlib.Data.List.Forall2
import TweenScript.Asset.Json

/-!
# Fields of JSON values

Which fields a value has under some keys (`Json.HasFields`), what keeps it from having any
(`Json.LacksFields`), and the same for texts and numbers. The order of members counts for nothing,
and neither do members under other keys.
-/

namespace TweenScript

/-! ## Numbers that are too large -/

namespace Numeral

/-- The digits that fit 64 bits, as a whole number. -/
def significand (n : Numeral) : Nat :=
  (appendDigits (appendDigits 0 n.whole).1 n.fraction).1

/-- The power of ten that the last of these digits counts. -/
def power (n : Numeral) : Int :=
  let (head, dropped) := appendDigits 0 n.whole
  let (_, unread) := appendDigits head n.fraction
  dropped.length + unread.length - n.fraction.length + n.exponent.getD 0

/-- A numeral is too large: in machine arithmetic its digits times their power of ten are infinite. -/
def Overflows (n : Numeral) : Prop :=
  0 ≤ n.power ∧
    if n.power ≤ 308 then (Float.ofNat n.significand * powerOfTen n.power.natAbs).isInf
    else ¬ Float.ofNat n.significand == 0

theorem scale_ne_none (f : Float) (e : Int) (h : e < 0) : scale f e ≠ none := by
  have negative : ¬ 0 ≤ e := by omega
  rw [scale]
  split_ifs with near zero
  · exact Option.some_ne_none _
  · exact Option.some_ne_none _
  · exact scale_ne_none (f / powerOfTen 308) (e + 308) (by omega)
termination_by e.natAbs
decreasing_by omega

theorem value_eq_none_iff {n : Numeral} : n.value? = none ↔ n.Overflows := by
  have value_eq : n.value? = (scale (Float.ofNat n.significand) n.power).map fun v =>
      if n.negative then -v else v := rfl
  rw [value_eq, Option.map_eq_none_iff, Overflows]
  by_cases positive : 0 ≤ n.power
  · rw [scale]
    by_cases near : n.power ≤ 308
    · have near' : n.power.natAbs ≤ 308 := by omega
      simp [positive, near, near']
    · have far : ¬ n.power.natAbs ≤ 308 := by omega
      simp [positive, near, far]
  · have some := scale_ne_none (Float.ofNat n.significand) n.power (by omega)
    simp [positive, some]

end Numeral

namespace Json

/-! ## Fields -/

/-- What the members of an object have under a key: nothing, or the value of the only member with
this key. -/
inductive FieldOf (members : List Member) (key : String) : Option Json → Prop where
  | absent (h : ∀ m ∈ members, m.key ≠ some key) : FieldOf members key none
  | present {before after : List Member} {value : Json}
    (split : members = before ++ ⟨some key, value⟩ :: after)
    (once : ∀ m ∈ before ++ after, m.key ≠ some key) : FieldOf members key (some value)

/-- The fields of a value under some keys: those of an object, whose keys are all texts, or the items
of an array, one for each key. -/
inductive HasFields (keys : List String) : Json → List (Option Json) → Prop where
  | object {members : List Member} {fields : List (Option Json)}
    (texts : ∀ m ∈ members, m.key ≠ none) (each : List.Forall₂ (FieldOf members) keys fields) :
    HasFields keys (.object members) fields
  | array {items : List Json} (length : items.length = keys.length) :
    HasFields keys (.array items) (items.map some)

/-- What keeps a value from having fields. A key that is no text does, whoever asked for it: a surrogate
without its partner names no member. -/
inductive LacksFields (keys : List String) : Json → Prop where
  | wrongType {j : Json} (noObject : ∀ members, j ≠ .object members)
    (noArray : ∀ items, j ≠ .array items) : LacksFields keys j
  | wrongLength {items : List Json} (h : items.length ≠ keys.length) : LacksFields keys (.array items)
  | loneSurrogate {members : List Member} {m : Member} (mem : m ∈ members) (h : m.key = none) :
    LacksFields keys (.object members)
  | repeated {key : String} (mem : key ∈ keys) {before between after : List Member} {m m' : Member}
    (first : m.key = some key) (second : m'.key = some key) :
    LacksFields keys (.object (before ++ m :: (between ++ m' :: after)))

/-- A value is a text. -/
def IsText (j : Json) (s : String) : Prop :=
  j = .string (some s)

/-- A value is no text. -/
inductive NoText : Json → Prop where
  | wrongType {j : Json} (h : ∀ text, j ≠ .string text) : NoText j
  | loneSurrogate : NoText (.string none)

/-- A value is a number that is read as `v`. -/
def IsNumber (j : Json) (v : Float) : Prop :=
  ∃ n : Numeral, j = .number n ∧ n.value? = some v

/-- A value is no number, or one that is too large. -/
inductive NoNumber : Json → Prop where
  | wrongType {j : Json} (h : ∀ n, j ≠ .number n) : NoNumber j
  | tooLarge {n : Numeral} (h : n.Overflows) : NoNumber (.number n)

theorem text_eq_some_iff {j : Json} {s : String} : j.text? = some s ↔ IsText j s := by
  cases j <;> simp [text?, IsText]

theorem text_eq_none_iff {j : Json} : j.text? = none ↔ NoText j := by
  constructor
  · intro h
    cases j with
    | string text =>
      cases text with
      | none => exact .loneSurrogate
      | some s => cases h
    | _ => exact .wrongType fun _ he => nomatch he
  · intro h
    cases h with
    | loneSurrogate => rfl
    | wrongType h =>
      cases j with
      | string text => exact absurd rfl (h text)
      | _ => rfl

theorem NoText.not_isText {j : Json} {s : String} (h : NoText j) : ¬ IsText j s := by
  rintro rfl
  cases h with
  | wrongType h => exact h _ rfl

theorem float_eq_some_iff {j : Json} {v : Float} : j.float? = some v ↔ IsNumber j v := by
  cases j <;> simp [float?, IsNumber]

theorem float_eq_none_iff {j : Json} : j.float? = none ↔ NoNumber j := by
  constructor
  · intro h
    cases j with
    | number n => exact .tooLarge (Numeral.value_eq_none_iff.mp h)
    | _ => exact .wrongType fun _ he => nomatch he
  · intro h
    cases h with
    | tooLarge h => exact Numeral.value_eq_none_iff.mpr h
    | wrongType h =>
      cases j with
      | number n => exact absurd rfl (h n)
      | _ => rfl

theorem mapM_eq_some_iff {α β : Type} {f : α → Option β} {xs : List α} {ys : List β} :
    xs.mapM f = some ys ↔ List.Forall₂ (fun x y => f x = some y) xs ys := by
  induction xs generalizing ys with
  | nil => simp [eq_comm]
  | cons x xs ih =>
    rw [List.mapM_cons, List.forall₂_cons_left_iff]
    simp only [Option.bind_eq_bind, Option.bind_eq_some_iff, Option.pure_def, Option.some.injEq, ih]
    constructor
    · rintro ⟨y, hy, ys, hys, rfl⟩
      exact ⟨y, ys, hy, hys, rfl⟩
    · rintro ⟨y, ys, hy, hys, rfl⟩
      exact ⟨y, hy, ys, hys, rfl⟩

theorem mapM_eq_none_iff {α β : Type} {f : α → Option β} {xs : List α} :
    xs.mapM f = none ↔ ∃ x ∈ xs, f x = none := by
  induction xs with
  | nil => simp
  | cons x xs ih =>
    rw [List.mapM_cons, List.exists_mem_cons_iff, ← ih]
    cases f x with
    | none => simp
    | some y => cases xs.mapM f <;> simp

/-- Keys and values as members. -/
def toMembers (pairs : List (String × Json)) : List Member :=
  pairs.map fun p => ⟨some p.1, p.2⟩

theorem members_eq_some_iff {members : List Member} {pairs : List (String × Json)} :
    members? members = some pairs ↔ members = toMembers pairs := by
  have each (m : Member) (p : String × Json) :
      m.key.map (·, m.value) = some p ↔ m = ⟨some p.1, p.2⟩ := by
    obtain ⟨key, value⟩ := m
    obtain ⟨k, v⟩ := p
    cases key <;> simp
  rw [members?, mapM_eq_some_iff, toMembers, ← List.forall₂_eq_eq_eq, List.forall₂_map_right_iff]
  simp only [each]

theorem members_eq_none_iff {members : List Member} :
    members? members = none ↔ ∃ m ∈ members, m.key = none := by
  rw [members?, mapM_eq_none_iff]
  simp only [Option.map_eq_none_iff]

theorem no_key_iff {pairs : List (String × Json)} {key : String} :
    (∀ m ∈ toMembers pairs, m.key ≠ some key) ↔ ∀ p ∈ pairs, p.1 ≠ key := by
  simp only [toMembers, List.forall_mem_map, ne_eq, Option.some.injEq]

theorem fieldOf_append {before after : List (String × Json)} {key : String} (value : Json)
    (h : ∀ p ∈ before ++ after, p.1 ≠ key) :
    FieldOf (toMembers (before ++ (key, value) :: after)) key (some value) := by
  have split : toMembers (before ++ (key, value) :: after) =
      toMembers before ++ ⟨some key, value⟩ :: toMembers after := by simp [toMembers]
  refine .present split ?_
  rw [List.forall_mem_append] at h ⊢
  exact ⟨no_key_iff.mpr h.1, no_key_iff.mpr h.2⟩

theorem filter_eq_nil_iff {pairs : List (String × Json)} {key : String} :
    (pairs.filter fun p => p.1 == key) = [] ↔ ∀ p ∈ pairs, p.1 ≠ key := by
  simp only [List.filter_eq_nil_iff, beq_iff_eq, ne_eq]

theorem field_eq_some_iff {pairs : List (String × Json)} {key : String} {field : Option Json} :
    field? pairs key = some field ↔ FieldOf (toMembers pairs) key field := by
  unfold field?
  constructor
  · intro h
    split at h
    · rename_i hfilter
      cases h
      exact .absent (no_key_iff.mpr (filter_eq_nil_iff.mp hfilter))
    · rename_i p hfilter
      cases h
      obtain ⟨before, after, rfl, hbefore, hp, hafter⟩ := List.filter_eq_cons_iff.mp hfilter
      obtain ⟨key', value⟩ := p
      obtain rfl : key' = key := beq_iff_eq.mp hp
      refine fieldOf_append value (List.forall_mem_append.mpr ⟨fun p hp he => ?_, ?_⟩)
      · exact hbefore p hp (beq_iff_eq.mpr he)
      · exact filter_eq_nil_iff.mp hafter
    · cases h
  · intro h
    cases h with
    | absent h =>
      rw [filter_eq_nil_iff.mpr (no_key_iff.mp h)]
    | @present before after value split once =>
      obtain ⟨before, rest, rfl, rfl, hrest⟩ := List.map_eq_append_iff.mp split
      obtain ⟨p, after, rfl, hp, rfl⟩ := List.map_eq_cons_iff.mp hrest
      obtain ⟨hkey, rfl⟩ := Member.mk.inj hp
      obtain rfl := Option.some.inj hkey
      obtain ⟨hbefore, hafter⟩ := List.forall_mem_append.mp once
      have single : ((before ++ p :: after).filter fun m => m.1 == p.1) = [p] := by
        rw [List.filter_append, filter_eq_nil_iff.mpr (no_key_iff.mp hbefore), List.nil_append]
        simp [filter_eq_nil_iff.mpr (no_key_iff.mp hafter)]
      rw [single]

theorem field_eq_none_iff {pairs : List (String × Json)} {key : String} :
    field? pairs key = none ↔ ∃ before m between m' after,
      pairs = before ++ m :: (between ++ m' :: after) ∧ m.1 = key ∧ m'.1 = key := by
  unfold field?
  constructor
  · intro h
    split at h
    · cases h
    · cases h
    · rename_i hnone hone
      obtain ⟨m, more, hfilter⟩ := List.exists_cons_of_ne_nil hnone
      have notOne : more ≠ [] := by
        rintro rfl
        exact hone m hfilter
      obtain ⟨m', others, rfl⟩ := List.exists_cons_of_ne_nil notOne
      obtain ⟨before, rest, rfl, -, hm, hrest⟩ := List.filter_eq_cons_iff.mp hfilter
      obtain ⟨between, after, rfl, -, hm', -⟩ := List.filter_eq_cons_iff.mp hrest
      exact ⟨before, m, between, m', after, rfl, beq_iff_eq.mp hm, beq_iff_eq.mp hm'⟩
  · rintro ⟨before, m, between, m', after, rfl, hm, hm'⟩
    have two : ∃ xs ys zs, ((before ++ m :: (between ++ m' :: after)).filter fun m => m.1 == key) =
        xs ++ m :: (ys ++ m' :: zs) := by
      simp only [List.filter_append, List.filter_cons, hm, hm', beq_self_eq_true, if_true]
      exact ⟨_, _, _, rfl⟩
    obtain ⟨xs, ys, zs, hfilter⟩ := two
    rw [hfilter]
    split
    · rename_i h
      simp at h
    · rename_i h
      have length := congrArg List.length h
      simp at length
      omega
    · rfl

theorem fields_eq_some_iff {keys : List String} {j : Json} {fields : List (Option Json)} :
    j.fields? keys = some fields ↔ HasFields keys j fields := by
  constructor
  · intro h
    cases j with
    | object members =>
      obtain ⟨pairs, hpairs, hfields⟩ := Option.bind_eq_some_iff.mp h
      obtain rfl := members_eq_some_iff.mp hpairs
      refine .object (fun m hm => ?_) ((mapM_eq_some_iff.mp hfields).imp ?_)
      · obtain ⟨p, -, rfl⟩ := List.mem_map.mp hm
        exact Option.some_ne_none _
      · exact fun _ _ h => field_eq_some_iff.mp h
    | array items =>
      simp only [fields?] at h
      split at h
      · rename_i length
        cases h
        exact .array length
      · cases h
    | _ => cases h
  · intro h
    cases h with
    | @object members _ texts each =>
      cases hpairs : members? members with
      | none =>
        obtain ⟨m, hm, hkey⟩ := members_eq_none_iff.mp hpairs
        exact absurd hkey (texts m hm)
      | some pairs =>
        obtain rfl := members_eq_some_iff.mp hpairs
        refine Option.bind_eq_some_iff.mpr ⟨pairs, hpairs, mapM_eq_some_iff.mpr ?_⟩
        exact each.imp fun _ _ h => field_eq_some_iff.mpr h
    | array length => exact if_pos length

theorem HasFields.unique {keys : List String} {j : Json} {fields fields' : List (Option Json)}
    (h : HasFields keys j fields) (h' : HasFields keys j fields') : fields = fields' :=
  Option.some.inj ((fields_eq_some_iff.mpr h).symm.trans (fields_eq_some_iff.mpr h'))

theorem HasFields.length_eq {keys : List String} {j : Json} {fields : List (Option Json)}
    (h : HasFields keys j fields) : fields.length = keys.length := by
  cases h with
  | object texts each => exact each.length_eq.symm
  | array length => rw [List.length_map, length]

theorem fields_eq_none_iff {keys : List String} {j : Json} :
    j.fields? keys = none ↔ LacksFields keys j := by
  constructor
  · intro h
    cases j with
    | object members =>
      cases hpairs : members? members with
      | none =>
        obtain ⟨m, hm, hkey⟩ := members_eq_none_iff.mp hpairs
        exact .loneSurrogate hm hkey
      | some pairs =>
        obtain rfl := members_eq_some_iff.mp hpairs
        simp only [fields?, hpairs, Option.bind_eq_bind, Option.bind_some] at h
        obtain ⟨key, hkey, hfield⟩ := mapM_eq_none_iff.mp h
        obtain ⟨before, m, between, m', after, rfl, rfl, hm'⟩ := field_eq_none_iff.mp hfield
        simp only [toMembers, List.map_append, List.map_cons]
        exact .repeated hkey rfl (congrArg some hm')
    | array items =>
      simp only [fields?] at h
      split at h
      · cases h
      · rename_i wrong
        exact .wrongLength wrong
    | _ => exact .wrongType (fun _ he => nomatch he) fun _ he => nomatch he
  · intro h
    cases h with
    | wrongType noObject noArray =>
      cases j with
      | object members => exact absurd rfl (noObject members)
      | array items => exact absurd rfl (noArray items)
      | _ => rfl
    | wrongLength h => exact if_neg h
    | loneSurrogate mem h =>
      exact Option.bind_eq_none_iff.mpr fun pairs hpairs => by
        rw [members_eq_none_iff.mpr ⟨_, mem, h⟩] at hpairs
        cases hpairs
    | @repeated key mem before between after m m' first second =>
      refine Option.bind_eq_none_iff.mpr fun pairs hpairs => ?_
      have split : toMembers pairs = before ++ m :: (between ++ m' :: after) :=
        (members_eq_some_iff.mp hpairs).symm
      obtain ⟨before, rest, rfl, rfl, fromFirst⟩ := List.map_eq_append_iff.mp split
      obtain ⟨p, rest, rfl, rfl, behindFirst⟩ := List.map_eq_cons_iff.mp fromFirst
      obtain ⟨between, rest, rfl, rfl, fromSecond⟩ := List.map_eq_append_iff.mp behindFirst
      obtain ⟨p', after, rfl, rfl, rfl⟩ := List.map_eq_cons_iff.mp fromSecond
      exact mapM_eq_none_iff.mpr ⟨key, mem, field_eq_none_iff.mpr
        ⟨before, p, between, p', after, rfl, Option.some.inj first, Option.some.inj second⟩⟩

theorem LacksFields.not_hasFields {keys : List String} {j : Json} {fields : List (Option Json)}
    (h : LacksFields keys j) : ¬ HasFields keys j fields := by
  intro has
  have lacks := fields_eq_none_iff.mpr h
  rw [fields_eq_some_iff.mpr has] at lacks
  cases lacks

end Json

end TweenScript
