import TweenScript.Proofs.Cursor.Bytes

/-!
# Runs of a cursor

What the loops of a cursor pass, first among the bytes of a text and then among its characters. Inside
of a comment a cursor stands between any two bytes; everywhere else it passes ASCII characters only, and
so it stands between two characters (`Cursor.Stands`).
-/

namespace TweenScript

open Lexical

namespace Cursor

theorem skipWhile_of_stop {p : Char → Bool} {c : Cursor}
    (stops : ∀ b, c.peek = some b → ¬ p (.ofUInt8 b)) : c.skipWhile p = c := by
  rw [skipWhile]
  split
  · rfl
  · rename_i b peeked
    exact if_neg (stops b peeked)

theorem skipWhile_of_peek {p : Char → Bool} {c : Cursor} {b : UInt8} (peeked : c.peek = some b)
    (inside : p (.ofUInt8 b)) : c.skipWhile p = c.bump.2.skipWhile p := by
  rw [skipWhile]
  split
  · rename_i none
    rw [peeked] at none
    cases none
  · rename_i b' peeked'
    rw [peeked] at peeked'
    cases peeked'
    exact if_pos inside

/-! ## Among bytes -/

/-- The cursor stands in `text` between the bytes `front` and `rest`. -/
structure Among (text : String) (front rest : List UInt8) (c : Cursor) : Prop where
  text_eq : c.text = text
  split : utf8 text.toList = front ++ rest
  pos : c.pos = front.length
  line : c.line = 1 + front.count '\n'.toUInt8

namespace Among

variable {text : String} {front run rest : List UInt8} {b : UInt8} {c : Cursor}

theorem peekAt (h : Among text front rest c) (n : Nat) : c.peekAt n = rest[n]? := by
  rw [Cursor.peekAt, h.text_eq, h.pos, getElem?_toByteArray, h.split,
    List.getElem?_append_right (Nat.le_add_right _ _), Nat.add_sub_cancel_left]

theorem peek (h : Among text front rest c) : c.peek = rest.head? := by
  rw [Cursor.peek, h.peekAt, List.head?_eq_getElem?]

theorem bump_eq (h : Among text front (b :: rest) c) : c.bump = (some b, c.bump.2) := by
  rw [Cursor.bump, h.peek]
  rfl

theorem bump (h : Among text front (b :: rest) c) : Among text (front ++ [b]) rest c.bump.2 := by
  have peeked : c.peek = some b := h.peek
  obtain ⟨text_eq, split, pos, line⟩ := h
  simp only [Cursor.bump, peeked]
  refine ⟨text_eq, ?_, ?_, ?_⟩
  · rw [split, List.append_assoc]
    rfl
  · rw [pos, List.length_append]
    rfl
  · rw [line, List.count_append, List.count_singleton]
    by_cases newline : b = '\n'.toUInt8 <;> simp [newline, Nat.add_assoc]

theorem skipLineComment (h : Among text front (run ++ '\n'.toUInt8 :: rest) c)
    (inside : '\n'.toUInt8 ∉ run) :
    Among text (front ++ (run ++ ['\n'.toUInt8])) rest c.skipLineComment := by
  induction run generalizing front c with
  | nil =>
    rw [Cursor.skipLineComment, h.bump_eq]
    exact h.bump
  | cons b run ih =>
    rw [List.mem_cons, not_or] at inside
    rw [Cursor.skipLineComment, h.bump_eq]
    simp only [if_neg (Ne.symm inside.1)]
    rw [List.cons_append, List.append_cons]
    exact ih h.bump inside.2

theorem skipLineComment_end (h : Among text front run c) (inside : '\n'.toUInt8 ∉ run) :
    Among text (front ++ run) [] c.skipLineComment := by
  induction run generalizing front c with
  | nil =>
    have peeked : c.peek = none := h.peek
    rw [Cursor.skipLineComment, Cursor.bump, peeked, List.append_nil]
    exact h
  | cons b run ih =>
    rw [List.mem_cons, not_or] at inside
    rw [Cursor.skipLineComment, h.bump_eq]
    simp only [if_neg (Ne.symm inside.1)]
    rw [List.append_cons]
    exact ih h.bump inside.2

theorem closeComment_cons (start : Position) (h : Among text front (b :: rest) c)
    (opens : ¬ ['*'.toUInt8, '/'.toUInt8] <+: b :: rest) :
    c.closeComment start = c.bump.2.closeComment start := by
  rw [Cursor.closeComment, h.bump_eq]
  simp only [h.bump.peek]
  refine if_neg fun ⟨star, slash⟩ => opens ?_
  rw [star]
  exact List.cons_prefix_cons.mpr ⟨rfl, List.singleton_prefix_iff_head?_eq_some.mpr slash⟩

theorem closeComment (start : Position)
    (h : Among text front (run ++ '*'.toUInt8 :: '/'.toUInt8 :: rest) c)
    (opens : ¬ ['*'.toUInt8, '/'.toUInt8] <:+: run) :
    ∃ c', c.closeComment start = (.ok (), c') ∧
      Among text (front ++ (run ++ ['*'.toUInt8, '/'.toUInt8])) rest c' := by
  induction run generalizing front c with
  | nil =>
    have star := h.bump
    have slash := star.bump
    rw [List.append_assoc] at slash
    refine ⟨_, ?_, slash⟩
    rw [Cursor.closeComment, h.bump_eq]
    exact if_pos ⟨rfl, star.peek⟩
  | cons b run ih =>
    rw [List.infix_cons_iff, not_or] at opens
    -- next is a byte of `run`, or the star of the end, and neither is the slash behind a star
    have goesOn : ¬ ['*'.toUInt8, '/'.toUInt8] <+: b :: (run ++ '*'.toUInt8 :: '/'.toUInt8 :: rest) := by
      rintro first
      obtain ⟨rfl, next⟩ := List.cons_prefix_cons.mp first
      rw [List.singleton_prefix_iff_head?_eq_some] at next
      cases run with
      | nil => cases next
      | cons d run =>
        cases next
        exact opens.1 ⟨run, rfl⟩
    obtain ⟨c', closed, among⟩ := ih h.bump opens.2
    refine ⟨c', (h.closeComment_cons start goesOn).trans closed, ?_⟩
    rwa [List.append_assoc] at among

theorem closeComment_end (start : Position) (h : Among text front run c)
    (opens : ¬ ['*'.toUInt8, '/'.toUInt8] <:+: run) :
    ∃ c', c.closeComment start = (.error (.lexical start .unclosedComment), c') ∧
      Among text (front ++ run) [] c' := by
  induction run generalizing front c with
  | nil =>
    have peeked : c.peek = none := h.peek
    refine ⟨c, ?_, by rwa [List.append_nil]⟩
    rw [Cursor.closeComment, Cursor.bump, peeked]
  | cons b run ih =>
    rw [List.infix_cons_iff, not_or] at opens
    obtain ⟨c', ends, among⟩ := ih h.bump opens.2
    refine ⟨c', (h.closeComment_cons start opens.1).trans ends, ?_⟩
    rwa [List.append_assoc] at among

end Among

/-! ## Between characters -/

/-- The cursor stands in `text` between the characters `front` and `rest`. -/
structure Stands (text : String) (front rest : List Char) (c : Cursor) : Prop where
  text_eq : c.text = text
  split : text.toList = front ++ rest
  pos : c.pos = utf8Length front
  line : c.line = 1 + front.count '\n'

namespace Stands

variable {text : String} {front run rest : List Char} {x y : Char} {c : Cursor}

theorem among (h : Stands text front rest c) : Among text (utf8 front) (utf8 rest) c where
  text_eq := h.text_eq
  split := by rw [h.split, utf8_append]
  pos := by rw [h.pos, length_utf8]
  line := by rw [h.line, count_utf8 (by decide)]

theorem of_among (bytes : List UInt8) (split : text.toList = front ++ rest)
    (h : Among text (utf8 front) bytes c) : Stands text front rest c where
  text_eq := h.text_eq
  split := split
  pos := by rw [h.pos, length_utf8]
  line := by rw [h.line, count_utf8 (by decide)]

theorem peek_eq_iff (h : Stands text front rest c) (ascii : IsAscii x) :
    c.peek = some x.toUInt8 ↔ rest.head? = some x := by
  rw [h.among.peek, head?_utf8_iff ascii]

theorem head?_of_peek {b : UInt8} (h : Stands text front rest c) (peeked : c.peek = some b)
    (ascii : IsAscii (.ofUInt8 b)) : rest.head? = some (.ofUInt8 b) := by
  rw [← h.peek_eq_iff ascii, toUInt8_ofUInt8]
  exact peeked

theorem peek_of_cons (h : Stands text front (x :: rest) c) (ascii : IsAscii x) :
    c.peek = some x.toUInt8 :=
  (h.peek_eq_iff ascii).mpr rfl

theorem peekAt_one_iff (h : Stands text front (x :: rest) c) (ascii : IsAscii x) (other : IsAscii y) :
    c.peekAt 1 = some y.toUInt8 ↔ rest.head? = some y := by
  rw [h.among.peekAt, utf8_cons, utf8EncodeChar_of_ascii ascii, List.singleton_append,
    List.getElem?_cons_succ, ← List.head?_eq_getElem?, head?_utf8_iff other]

theorem bump (h : Stands text front (x :: rest) c) (ascii : IsAscii x) :
    Stands text (front ++ [x]) rest c.bump.2 := by
  have among := h.among
  rw [utf8_cons, utf8EncodeChar_of_ascii ascii] at among
  have passed := among.bump
  refine .of_among (utf8 rest) ?_ ?_
  · rw [h.split, List.append_assoc]
    rfl
  · rw [utf8_append, utf8_cons, utf8EncodeChar_of_ascii ascii]
    exact passed

theorem jump (h : Stands text front (x :: y :: rest) c) (hx : IsAscii x) (hy : IsAscii y)
    (sameLine : '\n' ∉ [x, y]) : Stands text (front ++ [x, y]) rest (c.jump 2) := by
  have size (z : Char) (hz : IsAscii z) : z.utf8Size = 1 := by
    rw [← String.length_utf8EncodeChar, utf8EncodeChar_of_ascii hz]
    rfl
  obtain ⟨text_eq, split, pos, line⟩ := h
  refine ⟨text_eq, by simp [split], ?_, ?_⟩
  · simp only [Cursor.jump, pos, utf8Length_append, utf8Length, size x hx, size y hy]
  · rw [List.count_append, List.count_eq_zero_of_not_mem sameLine]
    exact line

theorem bumpIf_of_head (h : Stands text front (x :: rest) c) (ascii : IsAscii x) :
    c.bumpIf x = (true, c.bump.2) :=
  if_pos (h.peek_of_cons ascii)

theorem bumpIf_of_other (h : Stands text front rest c) (ascii : IsAscii x)
    (other : rest.head? ≠ some x) : c.bumpIf x = (false, c) :=
  if_neg (mt (h.peek_eq_iff ascii).mp other)

section skipWhile

variable {p : Char → Bool} {q : Char → Prop} (hp : ∀ x, p x = true ↔ q x) (ascii : ∀ x, q x → IsAscii x)

include hp ascii

theorem skipWhile_eq_self (h : Stands text front rest c) (ends : ∀ x, rest.head? = some x → ¬ q x) :
    c.skipWhile p = c := by
  refine skipWhile_of_stop fun b peeked inside => ?_
  have inside := (hp _).mp inside
  exact ends _ (h.head?_of_peek peeked (ascii _ inside)) inside

theorem skipWhile (h : Stands text front (run ++ rest) c) (spans : Spans q run rest) :
    Stands text (front ++ run) rest (c.skipWhile p) := by
  obtain ⟨inside, ends⟩ := spans
  induction run generalizing front c with
  | nil =>
    rw [List.nil_append] at h
    rwa [h.skipWhile_eq_self hp ascii ends, List.append_nil]
  | cons x run ih =>
    obtain ⟨here, inside⟩ := List.forall_mem_cons.mp inside
    have stands : Stands text front (x :: (run ++ rest)) c := h
    have peeked := stands.peek_of_cons (ascii x here)
    have inClass : p (.ofUInt8 x.toUInt8) := by
      rwa [ofUInt8_toUInt8 (ascii x here), hp]
    rw [skipWhile_of_peek peeked inClass, List.append_cons]
    exact ih (stands.bump (ascii x here)) inside

end skipWhile

theorem since (h : Stands text (front ++ run) rest c) :
    c.since (utf8Length front) = some (String.ofList run) := by
  rw [Cursor.since, h.text_eq, h.pos]
  exact slice?_eq_some (h.split.trans (List.append_assoc ..))

end Stands

end Cursor

end TweenScript
