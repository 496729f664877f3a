import Mathlib.Data.List.Infix
import TweenScript.Proofs.Lexing.Places
import TweenScript.Proofs.Cursor

/-!
# Bytes of characters

The UTF-8 form of a text has a byte of its own for every ASCII character, with the code of the
character, and no byte below 128 for any other. So an ASCII character is found among the bytes of a
text where it is found in the text.
-/

namespace TweenScript

/-- The bytes of characters. -/
def utf8 (cs : List Char) : List UInt8 :=
  cs.flatMap String.utf8EncodeChar

theorem utf8_cons (c : Char) (cs : List Char) : utf8 (c :: cs) = String.utf8EncodeChar c ++ utf8 cs :=
  rfl

@[simp] theorem utf8_append (xs ys : List Char) : utf8 (xs ++ ys) = utf8 xs ++ utf8 ys :=
  List.flatMap_append

theorem length_utf8 (cs : List Char) : (utf8 cs).length = utf8Length cs := by
  induction cs with
  | nil => rfl
  | cons c cs ih => rw [utf8_cons, List.length_append, String.length_utf8EncodeChar, ih, utf8Length]

theorem getElem?_toByteArray (text : String) (i : Nat) :
    text.toByteArray[i]? = (utf8 text.toList)[i]? := by
  have bytes : text.toByteArray = (utf8 text.toList).toByteArray := String.utf8Encode_toList.symm
  have inside : i < (utf8 text.toList).toByteArray.size ↔ i < (utf8 text.toList).length := by
    rw [List.size_toByteArray]
  rw [bytes]
  by_cases h : i < (utf8 text.toList).length
  · rw [getElem?_pos _ i (inside.mpr h), List.getElem?_eq_getElem h, List.getElem_toByteArray]
  · rw [getElem?_neg _ i (mt inside.mp h), List.getElem?_eq_none (Nat.not_lt.mp h)]

/-! ## One character -/

/-- The character has a byte of its own. -/
def IsAscii (c : Char) : Prop :=
  c.toNat < 128

instance : DecidablePred IsAscii :=
  fun c => inferInstanceAs (Decidable (c.toNat < 128))

section ascii

variable {c : Char} {b : UInt8}

theorem toNat_toUInt8 (h : IsAscii c) : c.toUInt8.toNat = c.toNat := by
  have small : c.val.toNat < 128 := h
  show c.val.toNat % 256 = c.val.toNat
  omega

theorem toNat_ofUInt8 (b : UInt8) : (Char.ofUInt8 b).toNat = b.toNat := by
  show b.toUInt32.toNat = b.toNat
  simp

theorem ofUInt8_toUInt8 (h : IsAscii c) : Char.ofUInt8 c.toUInt8 = c := by
  rw [← Char.toNat_inj, toNat_ofUInt8, toNat_toUInt8 h]

theorem toUInt8_ofUInt8 (b : UInt8) : (Char.ofUInt8 b).toUInt8 = b := by
  rw [← UInt8.toNat_inj]
  show (Char.ofUInt8 b).toNat % 256 = b.toNat
  have := b.toNat_lt
  rw [toNat_ofUInt8]
  omega

theorem utf8EncodeChar_of_ascii (h : IsAscii c) : String.utf8EncodeChar c = [c.toUInt8] := by
  have small : c.val.toNat < 128 := h
  have le : c.val.toNat ≤ 127 := by omega
  rw [String.utf8EncodeChar]
  simp only [le, if_true]
  rfl

theorem le_of_mem_utf8EncodeChar (h : ¬ IsAscii c) (mem : b ∈ String.utf8EncodeChar c) :
    128 ≤ b.toNat := by
  have large : ¬ c.val.toNat ≤ 127 := by
    have : ¬ c.val.toNat < 128 := h
    omega
  simp only [String.utf8EncodeChar, large, if_false] at mem
  split at mem
  · simp only [List.mem_cons, List.not_mem_nil, or_false] at mem
    rcases mem with rfl | rfl <;> simp <;> omega
  · split at mem
    · simp only [List.mem_cons, List.not_mem_nil, or_false] at mem
      rcases mem with rfl | rfl | rfl <;> simp <;> omega
    · simp only [List.mem_cons, List.not_mem_nil, or_false] at mem
      rcases mem with rfl | rfl | rfl | rfl <;> simp <;> omega

end ascii

/-! ## Runs of characters -/

section runs

variable {x y : Char} {b : UInt8} {cs : List Char}

theorem toUInt8_inj (hx : IsAscii x) (hy : IsAscii y) : x.toUInt8 = y.toUInt8 ↔ x = y := by
  rw [← UInt8.toNat_inj, toNat_toUInt8 hx, toNat_toUInt8 hy, Char.toNat_inj]

theorem not_mem_utf8EncodeChar (hx : IsAscii x) (hy : ¬ IsAscii y) :
    x.toUInt8 ∉ String.utf8EncodeChar y := by
  intro mem
  have large := le_of_mem_utf8EncodeChar hy mem
  rw [toNat_toUInt8 hx] at large
  exact Nat.not_lt.mpr large hx

theorem count_utf8 (hx : IsAscii x) (cs : List Char) : (utf8 cs).count x.toUInt8 = cs.count x := by
  induction cs with
  | nil => rfl
  | cons c cs ih =>
    rw [utf8_cons, List.count_append, ih, List.count_cons, Nat.add_comm]
    congr 1
    by_cases hc : IsAscii c
    · rw [utf8EncodeChar_of_ascii hc, List.count_singleton]
      simp only [beq_iff_eq, toUInt8_inj hc hx]
    · have other : c ≠ x := by
        rintro rfl
        exact hc hx
      rw [List.count_eq_zero_of_not_mem (not_mem_utf8EncodeChar hx hc), if_neg (by simpa using other)]

theorem mem_utf8_iff (hx : IsAscii x) : x.toUInt8 ∈ utf8 cs ↔ x ∈ cs := by
  rw [← List.count_pos_iff, count_utf8 hx, List.count_pos_iff]

theorem head?_utf8_iff (hx : IsAscii x) : (utf8 cs).head? = some x.toUInt8 ↔ cs.head? = some x := by
  cases cs with
  | nil => simp [utf8]
  | cons c cs =>
    rw [utf8_cons, List.head?_cons]
    by_cases hc : IsAscii c
    · rw [utf8EncodeChar_of_ascii hc, List.singleton_append, List.head?_cons, Option.some_inj,
        toUInt8_inj hc hx, Option.some_inj]
    · have other : c ≠ x := by
        rintro rfl
        exact hc hx
      refine iff_of_false (fun first => not_mem_utf8EncodeChar hx hc ?_) (by simpa using other)
      refine List.mem_of_mem_head? ?_
      rwa [List.head?_append_of_ne_nil _ String.utf8EncodeChar_ne_nil] at first

theorem infix_of_infix_append {α : Type} {a : α} {l front rest : List α}
    (h : a :: l <:+: front ++ rest) (other : a ∉ front) : a :: l <:+: rest := by
  induction front with
  | nil => exact h
  | cons b front ih =>
    rw [List.mem_cons, not_or] at other
    rcases List.infix_cons_iff.mp h with first | later
    · exact absurd (List.cons_prefix_cons.mp first).1 other.1
    · exact ih later other.2

/-- Two ASCII characters that stand side by side among the bytes do so in the text. -/
theorem infix_of_infix_utf8 (hx : IsAscii x) (hy : IsAscii y)
    (h : [x.toUInt8, y.toUInt8] <:+: utf8 cs) : [x, y] <:+: cs := by
  induction cs with
  | nil => simp [utf8] at h
  | cons c cs ih =>
    rw [List.infix_cons_iff]
    by_cases hc : IsAscii c
    · rw [utf8_cons, utf8EncodeChar_of_ascii hc, List.singleton_append, List.infix_cons_iff] at h
      refine h.imp (fun first => ?_) ih
      obtain ⟨same, next⟩ := List.cons_prefix_cons.mp first
      obtain rfl := (toUInt8_inj hx hc).mp same
      rw [List.singleton_prefix_iff_head?_eq_some, head?_utf8_iff hy] at next
      exact List.cons_prefix_cons.mpr ⟨rfl, List.singleton_prefix_iff_head?_eq_some.mpr next⟩
    · exact .inr (ih (infix_of_infix_append h (not_mem_utf8EncodeChar hx hc)))

end runs

/-! ## Slices -/

theorem pos?_eq_some {text : String} {n : Nat} (h : OnBoundary text n) :
    text.pos? ⟨n⟩ = some (text.pos ⟨n⟩ h) := by
  have valid := String.Pos.Raw.isValidForSlice_eq_true_iff.mpr
    (String.Pos.Raw.IsValid.toSlice h)
  rw [String.pos?, String.Slice.pos?, dif_pos valid]
  rfl

theorem extract_utf8Encode (before piece after : List Char) :
    (before.utf8Encode ++ (piece.utf8Encode ++ after.utf8Encode)).extract (utf8Length before)
      (utf8Length (before ++ piece)) = piece.utf8Encode := by
  have size (cs : List Char) : cs.utf8Encode.size = utf8Length cs := by
    rw [← String.toByteArray_ofList, String.size_toByteArray, utf8Length_eq_utf8ByteSize]
  rw [utf8Length_append, ← size before, ← size piece, ByteArray.extract_append,
    ByteArray.extract_eq_empty_iff.mpr (by simp), Nat.sub_self, Nat.add_sub_cancel_left,
    ByteArray.extract_append_eq_left rfl, ByteArray.empty_append]

theorem slice?_eq_some {text : String} {before piece after : List Char}
    (split : text.toList = before ++ (piece ++ after)) :
    slice? text (utf8Length before) (utf8Length (before ++ piece)) = some (String.ofList piece) := by
  have first := onBoundary_of_split split
  have last := onBoundary_of_split (split.trans (List.append_assoc ..).symm)
  have le : text.pos ⟨_⟩ first ≤ text.pos ⟨_⟩ last := by
    show utf8Length before ≤ utf8Length (before ++ piece)
    rw [utf8Length_append]
    exact Nat.le_add_right _ _
  have bytes : text.toByteArray = before.utf8Encode ++ (piece.utf8Encode ++ after.utf8Encode) := by
    rw [← String.utf8Encode_toList, split, List.utf8Encode_append, List.utf8Encode_append]
  have cut : text.extract (text.pos ⟨_⟩ first) (text.pos ⟨_⟩ last) = String.ofList piece := by
    rw [← String.toByteArray_inj, String.toByteArray_extract, String.toByteArray_ofList, bytes]
    exact extract_utf8Encode before piece after
  rw [slice?, pos?_eq_some first, pos?_eq_some last]
  simp only [bind, Option.bind, if_pos le, cut]

end TweenScript
