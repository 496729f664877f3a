import TweenScript.Proofs.Cursor.Items

/-!
# Cursors at work

A cursor reads what a scanner reads that stands in the same place (`Cursor.Shows.getToken`). So whatever has
been asked of a cursor, no slice has failed, it stands between two characters, and its line counts the breaks
before it; every item but the end moves it forward, and the end is where it comes to rest
(`Cursor.sound_run`).
-/

namespace TweenScript

open Lexical

namespace Cursor

/-- The cursor stands in `text` where the scanner `s` does. -/
def Shows (text : String) (s : Scanner) (c : Cursor) : Prop :=
  ∃ front, Scanner.Stands text front s ∧ Stands text front s.rest c

variable {text : String} {s s' : Scanner} {i : Item} {c c' : Cursor}

theorem shows_ofString (text : String) : Shows text (.ofString text) (ofString text) :=
  ⟨[], Scanner.stands_ofString text, rfl, rfl, rfl, rfl⟩

theorem Stands.getToken_of_step {front : List Char} (h : Stands text front s.rest c)
    (scanner : Scanner.Stands text front s) (step : Lexical.Step s i s') :
    ∃ passed, s.rest = passed ++ s'.rest ∧ Reads text (front ++ passed) s'.rest i c.getToken := by
  cases step with
  | finish longest =>
    refine ⟨s.rest, (List.append_nil _).symm, ?_⟩
    rw [← List.append_nil s.rest] at h
    obtain ⟨c', same, stands⟩ := h.getToken_of_gap longest.isGap
    exact ⟨c', same.trans stands.getToken_of_nil, stands⟩
  | @token gap lexeme rest t split longest lexes =>
    refine ⟨gap ++ lexeme, by rw [split, List.append_assoc], ?_⟩
    rw [split] at h
    rw [← List.append_assoc]
    exact h.getToken_of_lexes longest lexes
  | @fault gap lexeme rest cause split longest lexes =>
    refine ⟨gap ++ lexeme, by rw [split, List.append_assoc], ?_⟩
    have place : s.position.past gap = Position.start.past (front ++ gap) := by
      rw [scanner.position, Position.past_append]
    rw [split] at h
    rw [← List.append_assoc, place]
    exact h.getToken_of_lexes longest lexes

namespace Shows

theorem position (h : Shows text s c) : c.position = s.position := by
  obtain ⟨front, scanner, stands⟩ := h
  rw [stands.position_eq, scanner.position]

theorem pos (h : Shows text s c) : c.pos = s.position.offset :=
  congrArg Position.offset h.position

theorem unique (h : Shows text s c) (h' : Shows text s c') : c = c' := by
  have place := h.position.trans h'.position.symm
  obtain ⟨_, _, stands⟩ := h
  obtain ⟨_, _, stands'⟩ := h'
  have same := stands.text_eq.trans stands'.text_eq.symm
  cases c
  cases c'
  cases place
  cases same
  rfl

/-- A cursor reads what the scanner reads. -/
theorem getToken (h : Shows text s c) (next : s.next = (i, s')) :
    ∃ c', c.getToken = some (i, c') ∧ Shows text s' c' := by
  obtain ⟨front, scanner, stands⟩ := h
  obtain ⟨passed, split, c', read, behind⟩ :=
    stands.getToken_of_step scanner (Scanner.step_of_next next)
  obtain ⟨passed', split', scanner'⟩ := scanner.next next
  obtain rfl := List.append_cancel_right (split.symm.trans split')
  exact ⟨c', read, _, scanner', behind⟩

theorem next_of_getToken (h : Shows text s c) (read : c.getToken = some (i, c')) :
    ∃ s', s.next = (i, s') ∧ Shows text s' c' := by
  rcases next : s.next with ⟨j, s'⟩
  obtain ⟨d, read', behind⟩ := h.getToken next
  rw [read] at read'
  cases read'
  exact ⟨s', rfl, behind⟩

theorem rewind (h : Shows text s c) : c.rewind = ofString text := by
  obtain ⟨front, -, stands⟩ := h
  rw [Cursor.rewind, stands.text_eq]
  rfl

theorem marks (h : Shows text s c) : ∃ front, c.position.Marks text front := by
  have place := h.position
  obtain ⟨front, scanner, -⟩ := h
  exact ⟨_, place ▸ scanner.marks⟩

theorem pos_add (h : Shows text s c) : c.pos + utf8Length s.rest = text.utf8ByteSize := by
  have place := h.pos
  obtain ⟨front, scanner, -⟩ := h
  rw [place, scanner.offset_add]

theorem pos_lt (h : Shows text s c) (read : c.getToken = some (i, c')) (other : i ≠ .finish) :
    c.pos < c'.pos := by
  obtain ⟨s', next, behind⟩ := h.next_of_getToken read
  have fewer := Scanner.utf8Length_rest_lt next other
  have here := h.pos_add
  have there := behind.pos_add
  omega

theorem slice (h : Shows text s c) (read : c.getToken = some (i, c')) :
    ∃ s' passed, s.next = (i, s') ∧ Shows text s' c' ∧ s.rest = passed ++ s'.rest ∧
      slice? text c.pos c'.pos = some (String.ofList passed) := by
  obtain ⟨s', next, behind⟩ := h.next_of_getToken read
  have here := h.pos
  have there := behind.pos
  obtain ⟨front, scanner, -⟩ := h
  obtain ⟨passed, split, scanner'⟩ := scanner.next next
  refine ⟨s', passed, next, behind, split, ?_⟩
  rw [here, there, scanner.offset, scanner'.offset]
  exact slice?_eq_some (scanner.split.trans (congrArg _ split))

theorem finish_iff (h : Shows text s c) (read : c.getToken = some (i, c')) :
    i = .finish ↔ c'.pos = text.utf8ByteSize ∧
      ∃ gap, slice? text c.pos c'.pos = some gap ∧ Gap gap.toList [] := by
  obtain ⟨s', passed, next, behind, split, piece⟩ := h.slice read
  have atEnd : c'.pos = text.utf8ByteSize ↔ s'.rest = [] := by
    have there := behind.pos_add
    rw [← utf8Length_eq_zero_iff]
    omega
  have isFinish := s.next_eq_finish_iff
  rw [next] at isFinish
  show i = .finish ↔ _
  rw [atEnd, piece]
  constructor
  · rintro rfl
    have rest := Scanner.rest_of_finish next
    rw [rest, List.append_nil] at split
    exact ⟨rest, _, rfl, by rw [String.toList_ofList, ← split]; exact isFinish.mp rfl⟩
  · rintro ⟨rest, gap, same, isGap⟩
    cases same
    rw [rest, List.append_nil] at split
    rw [String.toList_ofList, ← split] at isGap
    exact isFinish.mpr isGap

theorem getToken_of_finish (h : Shows text s c) (read : c.getToken = some (.finish, c')) :
    c'.getToken = some (.finish, c') := by
  obtain ⟨s', next, behind⟩ := h.next_of_getToken read
  obtain ⟨d, again, shows⟩ := behind.getToken (Scanner.next_of_rest_nil (Scanner.rest_of_finish next))
  rw [again, shows.unique behind]

end Shows

/-! ## Moves -/

/-- What may be asked of a cursor: to read the next item, or to begin again. -/
inductive Move where
  | getToken
  | rewind

/-- The cursor after a move. There is none if a slice fails. -/
def after (c : Cursor) : Move → Option Cursor
  | .getToken => c.getToken.map (·.2)
  | .rewind => some c.rewind

theorem after_getToken (read : c.getToken = some (i, c')) : c.after .getToken = some c' := by
  rw [after, read, Option.map_some]

theorem Shows.after (h : Shows text s c) (move : Move) :
    ∃ c' s', c.after move = some c' ∧ Shows text s' c' := by
  cases move with
  | getToken =>
    obtain ⟨c', read, shows⟩ := h.getToken rfl
    exact ⟨c', _, after_getToken read, shows⟩
  | rewind => exact ⟨_, _, congrArg some h.rewind, shows_ofString text⟩

theorem Shows.run (h : Shows text s c) (moves : List Move) :
    ∃ c' s', moves.foldlM Cursor.after c = some c' ∧ Shows text s' c' := by
  induction moves generalizing s c with
  | nil => exact ⟨c, s, rfl, h⟩
  | cons move moves ih =>
    obtain ⟨c', s', moved, shows⟩ := h.after move
    obtain ⟨c'', s'', run, shows⟩ := ih shows
    refine ⟨c'', s'', ?_, shows⟩
    rw [List.foldlM_cons, moved]
    exact run

theorem Shows.exists_finish {s : Scanner} {c : Cursor} (h : Shows text s c) :
    ∃ n c' c'', c.pos + n ≤ text.utf8ByteSize ∧
      (List.replicate n Move.getToken).foldlM Cursor.after c = some c' ∧
      c'.getToken = some (.finish, c'') := by
  rcases next : s.next with ⟨i, s'⟩
  obtain ⟨d, read, shows⟩ := h.getToken next
  by_cases finish : i = .finish
  · have inside := h.pos_add
    exact ⟨0, c, d, by omega, rfl, finish ▸ read⟩
  · -- every item before the end takes a byte at least
    have shorter := Scanner.next_rest_lt next finish
    have further := h.pos_lt read finish
    obtain ⟨n, c', c'', le, run, ends⟩ := shows.exists_finish
    refine ⟨n + 1, c', c'', by omega, ?_, ends⟩
    rw [List.replicate_succ, List.foldlM_cons, after_getToken read]
    exact run
termination_by s.rest.length

/-! ## The invariant -/

/-- What holds of a cursor of `text` at all times. -/
structure Sound (text : String) (c : Cursor) : Prop where
  bounded : c.pos ≤ text.utf8ByteSize
  boundary : OnBoundary text c.pos
  line : ∃ front, c.position.Marks text front
  /-- No slice fails on the way to the next item. -/
  returns : ∃ i c', c.getToken = some (i, c')
  progress : ∀ {i c'}, c.getToken = some (i, c') → i ≠ .finish → c.pos < c'.pos
  finish_iff : ∀ {i c'}, c.getToken = some (i, c') → (i = .finish ↔ c'.pos = text.utf8ByteSize ∧
    ∃ gap, slice? text c.pos c'.pos = some gap ∧ Gap gap.toList [])
  finished : ∀ {c'}, c.getToken = some (.finish, c') → c'.getToken = some (.finish, c')
  /-- Asked again and again, the cursor comes to the end with the call after `n` others. -/
  ends : ∃ n c' c'', c.pos + n ≤ text.utf8ByteSize ∧
    (List.replicate n Move.getToken).foldlM after c = some c' ∧ c'.getToken = some (.finish, c'')
  restarts : c.rewind = ofString text

theorem Shows.sound (h : Shows text s c) : Sound text c where
  bounded := by
    have inside := h.pos_add
    omega
  boundary := by
    obtain ⟨front, marks⟩ := h.marks
    exact marks.onBoundary
  line := h.marks
  returns := by
    obtain ⟨c', read, -⟩ := h.getToken rfl
    exact ⟨_, c', read⟩
  progress := h.pos_lt
  finish_iff := h.finish_iff
  finished := h.getToken_of_finish
  ends := h.exists_finish
  restarts := h.rewind

/-- Whatever is asked of a cursor, every slice is there, it stands at a place of its text, and what it does
next is as `Sound` says. -/
theorem sound_run (text : String) (moves : List Move) :
    ∃ c, moves.foldlM after (ofString text) = some c ∧ Sound text c := by
  obtain ⟨c, s, run, shows⟩ := (shows_ofString text).run moves
  exact ⟨c, run, shows.sound⟩

-- an unknown character of two bytes, and a comment that goes on to the end of the text
example : ([.getToken, .getToken].foldlM after (ofString "é/*\n")).map position = some ⟨2, 5⟩ := by
  decide +kernel

end Cursor

end TweenScript
