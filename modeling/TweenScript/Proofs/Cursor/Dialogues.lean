import TweenScript.Proofs.Cursor.Soundness
import TweenScript.Proofs.Dialogue.Endings

/-!
# Dialogues with cursors

A dialogue that is held with a cursor comes to what it comes to with a scanner in the same place
(`Cursor.Shows.lead`), so a text that is read byte by byte is parsed as it is (`ParseMode.led_eq`).
-/

namespace TweenScript

/-- Holds a dialogue with a cursor: every question is a call for the next item, a fault ends the dialogue, and
a refusal names the line where the cursor stands. There is no outcome if the dialogue breaks off or a slice
fails. -/
def Dialogue.lead {α : Type} : Dialogue α → Cursor → Option (Except Fault α × Cursor)
  | value a, c => some (.ok a, c)
  | refuse cause, c => some (.error (.grammar c.line cause), c)
  | tired, _ => none
  | ask reply, c =>
    match c.getToken with
    | none => none
    | some (.token t, c) => (reply (some t)).lead c
    | some (.finish, c) => (reply none).lead c
    | some (.fault f, c) => some (.error f, c)

namespace Cursor

/-- In `text` the call after `k` others begins at `p`, reads `i` and leaves the cursor `c`. -/
def ReadsAt (text : String) (k : Nat) (p : Position) (i : Item) (c : Cursor) : Prop :=
  ∃ b, (List.replicate k Move.getToken).foldlM after (ofString text) = some b ∧ b.position = p ∧
    b.getToken = some (i, c)

namespace Shows

variable {α : Type} {text : String} {s s' : Scanner} {c : Cursor}

theorem lead (h : Shows text s c) (d : Dialogue α) {outcome : Except Fault α}
    (held : (d.hold s).outcome = some outcome) :
    ∃ c', d.lead c = some (outcome, c') ∧ Shows text (d.hold s).scanner c' := by
  induction d generalizing s c with
  | value a =>
    cases held
    exact ⟨c, rfl, h⟩
  | refuse cause =>
    cases held
    rw [← congrArg Position.line h.position]
    exact ⟨c, rfl, h⟩
  | tired => cases held
  | ask reply ih =>
    rcases next : s.next with ⟨i, s'⟩
    obtain ⟨c', read, shows⟩ := h.getToken next
    rw [Dialogue.lead, read]
    cases i with
    | token t =>
      rw [Dialogue.hold_of_token next] at held ⊢
      exact ih (some t) shows held
    | finish =>
      rw [Dialogue.hold_of_finish next] at held ⊢
      exact ih none shows held
    | fault f =>
      rw [Dialogue.hold_of_fault next] at held ⊢
      cases held
      exact ⟨c', rfl, shows⟩

theorem exists_of_place (h : Shows text s c) {k : Nat} (place : s.places[k]? = some s') :
    ∃ c', (List.replicate k Move.getToken).foldlM Cursor.after c = some c' ∧ Shows text s' c' := by
  induction k generalizing s c with
  | zero =>
    cases place
    exact ⟨c, rfl, h⟩
  | succ k ih =>
    obtain ⟨tail, items, more⟩ := s.exists_tokens_items
    rcases next : s.next with ⟨i, m⟩
    obtain ⟨d, read, shows⟩ := h.getToken next
    -- behind a fault or the end there is no further place
    have behind : m.places[k]? = some s' := by
      cases i with
      | token t =>
        rw [Scanner.places_of_token next] at place
        exact place
      | fault f =>
        rw [Scanner.places, Scanner.tokens_items_of_fault next] at place
        cases k <;> cases place
        rfl
      | finish =>
        rw [Scanner.places, Scanner.tokens_items_of_finish next] at place
        cases k <;> cases place
        rfl
    obtain ⟨c', run, shows⟩ := ih shows behind
    refine ⟨c', ?_, shows⟩
    rw [List.replicate_succ, List.foldlM_cons, after_getToken read]
    exact run

end Shows

theorem readsAt_of_place {text : String} {k : Nat} {s s' : Scanner} {i : Item} {c : Cursor}
    (place : (Scanner.ofString text).places[k]? = some s) (next : s.next = (i, s'))
    (shows : Shows text s' c) : ReadsAt text k s.position i c := by
  obtain ⟨b, run, here⟩ := (shows_ofString text).exists_of_place place
  obtain ⟨c', read, behind⟩ := here.getToken next
  exact ⟨b, run, here.position, behind.unique shows ▸ read⟩

end Cursor

namespace ParseMode

/-- The dialogue about a text, held with a cursor. -/
def led (m : ParseMode) (text : String) : Option (Except Fault m.Tree × Cursor) :=
  (m.dialogue (16 * text.length + 14)).lead (.ofString text)

/-- With a cursor a text is parsed as it is with a scanner. -/
theorem led_eq (m : ParseMode) (text : String) :
    ∃ c, m.led text = some (m.parse text, c) ∧ Cursor.Shows text (m.held text).scanner c :=
  (Cursor.shows_ofString text).lead _ (m.held_outcome text)

end ParseMode

end TweenScript
