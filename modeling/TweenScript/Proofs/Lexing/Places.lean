import TweenScript.Proofs.Lexing.Separators

/-!
# Places of a text

A scanner stands behind some characters of its text before and behind every item (`Scanner.Stands.next`), so
its position is a place of the text: the offset lies between two characters, and the line counts the line
breaks before it.
-/

namespace TweenScript

/-! ## Bytes -/

theorem utf8Length_eq_utf8ByteSize (cs : List Char) :
    utf8Length cs = (String.ofList cs).utf8ByteSize := by
  induction cs with
  | nil => rfl
  | cons c cs ih =>
    rw [← List.singleton_append, String.ofList_append, String.utf8ByteSize_append,
      ← String.singleton_eq_ofList, String.utf8ByteSize_singleton, ← ih]
    rfl

theorem utf8Length_toList (text : String) : utf8Length text.toList = text.utf8ByteSize := by
  rw [utf8Length_eq_utf8ByteSize, String.ofList_toList]

/-- A byte offset between two characters. -/
def OnBoundary (text : String) (offset : Nat) : Prop :=
  (⟨offset⟩ : String.Pos.Raw).IsValid text

theorem onBoundary_of_split {text : String} {front back : List Char}
    (split : text.toList = front ++ back) : OnBoundary text (utf8Length front) := by
  have whole : text = String.ofList front ++ String.ofList back := by
    rw [← String.ofList_append, ← split, String.ofList_toList]
  rw [whole, utf8Length_eq_utf8ByteSize]
  exact String.Pos.Raw.isValid_rawEndPos.append_right _

/-- `p` is the place of `text` behind `front`. -/
structure Position.Marks (text front : String) (p : Position) : Prop where
  split : ∃ back, text = front ++ back
  offset : p.offset = front.utf8ByteSize
  line : p.line = 1 + front.toList.count '\n'

theorem marks_past {text : String} {front back : List Char} (split : text.toList = front ++ back) :
    (Position.start.past front).Marks text (String.ofList front) where
  split := by
    refine ⟨String.ofList back, ?_⟩
    rw [← String.ofList_append, ← split, String.ofList_toList]
  offset := by
    rw [← utf8Length_eq_utf8ByteSize]
    exact Nat.zero_add _
  line := by
    rw [String.toList_ofList]
    rfl

theorem Position.Marks.onBoundary {text front : String} {p : Position} (h : p.Marks text front) :
    OnBoundary text p.offset := by
  obtain ⟨back, rfl⟩ := h.split
  rw [h.offset]
  exact String.Pos.Raw.isValid_rawEndPos.append_right back

open Lexical

namespace Scanner

/-! ## Where a scanner stands -/

/-- The scanner stands in `text` behind `front`. -/
structure Stands (text : String) (front : List Char) (s : Scanner) : Prop where
  source : s.source = text.toList
  split : text.toList = front ++ s.rest
  position : s.position = Position.start.past front

theorem stands_ofString (text : String) : Stands text [] (ofString text) :=
  ⟨rfl, rfl, rfl⟩

variable {text : String} {front : List Char} {s s' : Scanner} {i : Item}

theorem step_of_next (h : s.next = (i, s')) : Lexical.Step s i s' := by
  obtain ⟨j, s'', step⟩ := exists_step s
  obtain ⟨rfl, rfl⟩ := Prod.mk.inj ((next_of_step step).symm.trans h)
  exact step

theorem next_source (s : Scanner) : s.next.2.source = s.source := by
  obtain ⟨i, s', step⟩ := exists_step s
  rw [next_of_step step]
  cases step <;> rfl

theorem Stands.next (h : Stands text front s) (next : s.next = (i, s')) :
    ∃ passed, s.rest = passed ++ s'.rest ∧ Stands text (front ++ passed) s' := by
  obtain ⟨passed, split, position⟩ := exists_consumed next
  refine ⟨passed, split, ?_, ?_, ?_⟩
  · rw [← h.source, ← next_source s, next]
  · rw [h.split, split, List.append_assoc]
  · rw [position, h.position, Position.past_append]

theorem Stands.marks (h : Stands text front s) :
    s.position.Marks text (String.ofList front) := by
  rw [h.position]
  exact marks_past h.split

theorem Stands.offset (h : Stands text front s) : s.position.offset = utf8Length front := by
  rw [h.position]
  exact Nat.zero_add _

theorem Stands.offset_add (h : Stands text front s) :
    s.position.offset + utf8Length s.rest = text.utf8ByteSize := by
  rw [h.offset, ← utf8Length_append, ← h.split, utf8Length_toList]

/-! ## The end of the text -/

theorem next_eq_finish_iff (s : Scanner) : s.next.1 = .finish ↔ Gap s.rest [] := by
  constructor
  · intro finish
    have step := step_of_next (Prod.ext finish rfl : s.next = (.finish, s.next.2))
    generalize s.next.2 = s' at step
    cases step with
    | finish longest => exact longest.isGap
  · intro isGap
    rw [next_of_step (.finish (longestGap_iff.mpr ⟨isGap, trivia.eq_1⟩))]

theorem rest_of_finish (h : s.next = (.finish, s')) : s'.rest = [] := by
  cases step_of_next h with
  | finish _ => rfl

theorem next_of_rest_nil (h : s.rest = []) : s.next = (.finish, s) := by
  have longest : LongestGap s.rest [] := by
    rw [h]
    exact longestGap_iff.mpr ⟨.nil, trivia.eq_1⟩
  rw [next_of_step (.finish longest), h]
  cases s
  cases h
  rfl

theorem utf8Length_rest_lt (h : s.next = (i, s')) (other : i ≠ .finish) :
    utf8Length s'.rest < utf8Length s.rest := by
  obtain ⟨passed, split, -⟩ := exists_consumed h
  have shorter := next_rest_lt h other
  have some : utf8Length passed ≠ 0 := by
    intro none
    rw [split, utf8Length_eq_zero_iff.mp none] at shorter
    exact Nat.lt_irrefl _ shorter
  rw [split, utf8Length_append]
  omega

end Scanner

end TweenScript
