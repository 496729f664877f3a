import TweenScript.Proofs.Machine.Dialogues
import TweenScript.Proofs.Machine.Progress

/-!
# Parsers and their texts

A parser reads its text in the same way however often it has done so before, and however that ended: with a
token ahead that is out of date or taken, and with its scanner anywhere (`Machine.reusable`). Every
routine returns, wherever the parser stands, and every text is read with one item asked for at most
besides its tokens (`Routine.perform_returns`).
-/

namespace TweenScript

/-- The text of a parser. -/
def Machine.text (m : Machine) : String :=
  String.ofList m.scanner.source

theorem Machine.rewind_eq (m : Machine) : m.scanner.rewind = .ofString m.text := by
  rw [Scanner.rewind, Scanner.ofString, Machine.text, String.toList_ofList]

theorem Dialogue.hold_source {α : Type} (d : Dialogue α) (s : Scanner) :
    (d.hold s).scanner.source = s.source := by
  induction d generalizing s with
  | value a => rfl
  | refuse cause => rfl
  | tired => rfl
  | ask reply ih =>
    have kept := s.next_source
    rcases item : s.next with ⟨i, s'⟩
    rw [item] at kept
    cases i with
    | token t =>
      rw [hold_of_token item]
      exact (ih (some t) s').trans kept
    | finish =>
      rw [hold_of_finish item]
      exact (ih none s').trans kept
    | fault f =>
      rw [hold_of_fault item]
      exact kept

/-- In whatever state a parser is, it reads its text as the text is to be read. -/
theorem Work.parse_run (mode : ParseMode) (m : Machine) :
    ∃ m', (parse mode).run.run m = some (mode.parse m.text, m') ∧
      m'.scanner = (mode.held m.text).scanner ∧ m'.asked = m.asked + mode.asked m.text := by
  have outcome := mode.held_outcome m.text
  rw [ParseMode.held, ← m.rewind_eq] at outcome
  have run := parse_enacts mode m _ outcome
  rw [m.rewind_eq] at run
  exact run

theorem Work.parse_text {mode : ParseMode} {m m' : Machine} {outcome : Except Fault mode.Tree}
    (h : (parse mode).run.run m = some (outcome, m')) : m'.text = m.text := by
  obtain ⟨m'', run, scanner, -⟩ := parse_run mode m
  rw [run] at h
  cases h
  rw [Machine.text, scanner, ParseMode.held, Dialogue.hold_source]
  exact String.ofList_toList

theorem Machine.parseAll_eq (m : Machine) (modes : List ParseMode) : ∃ m',
    m.parseAll modes = some (modes.map fun mode => ⟨mode, mode.parse m.text⟩, m') ∧
      m'.text = m.text := by
  induction modes generalizing m with
  | nil => exact ⟨m, rfl, rfl⟩
  | cons mode modes ih =>
    obtain ⟨m', run, -⟩ := Work.parse_run mode m
    have text := Work.parse_text run
    obtain ⟨m'', all, text'⟩ := ih m'
    refine ⟨m'', ?_, text'.trans text⟩
    rw [text] at all
    simp only [parseAll, run, bind, Option.bind, all, pure, List.map_cons]

/-- A parser may be used again. Whatever it has done before, and whatever token is ahead of it, every reading
of its text comes to what it comes to with a parser of this text that has done nothing yet, faults and their
places included. -/
theorem Machine.reusable (m : Machine) (modes : List ParseMode) :
    (∃ m', m.parseAll modes = some (modes.map fun mode => ⟨mode, mode.parse m.text⟩, m') ∧
      m'.text = m.text) ∧
    ∀ mode, ∃ m', (Work.parse mode).run.run (.ofString m.text) = some (mode.parse m.text, m') ∧
      m'.scanner = ((Parser.ofString m.text).run mode.read).2.scanner := by
  refine ⟨m.parseAll_eq modes, fun mode => ?_⟩
  obtain ⟨m', run, scanner, -⟩ := Work.parse_run mode (.ofString m.text)
  have text : (Machine.ofString m.text).text = m.text := String.ofList_toList
  rw [text] at run scanner
  exact ⟨m', run, scanner.trans (mode.held_scanner m.text)⟩

/-! ## Parsers return -/

/-- A parser with the token `ahead` that has left no notes yet. -/
def Machine.standing (scanner : Scanner) (ahead : Option Token) : Machine :=
  ⟨scanner, ahead, 0, []⟩

/-- **Parsers return.** With any token ahead and any scanner, every routine returns. It takes tokens one at a
time; statements, expressions, operands of all ranks, and what they begin with take one at least if they
end well. A visit comes with more tokens taken than at the one before, or to a smaller routine, so the turns
of a loop are at different tokens; and a call that the caller has taken no token for is one of the ladder from
statements down to primary expressions. Reading a text asks for its tokens and one more item at most. -/
theorem Routine.perform_returns :
    (∀ (c : Routine) (scanner : Scanner) (ahead : Option Token), let m := Machine.standing scanner ahead
      ∃ outcome m', (c.perform none).run.run m = some (outcome, m') ∧
        m'.asked ≤ m.left ∧ Orderly m'.visits ∧
        ∀ result, outcome = .ok result → c.gain ≤ m'.asked ∧ m'.asked + m'.left = m.left) ∧
    ∀ (mode : ParseMode) (scanner : Scanner) (ahead : Option Token),
      let m := Machine.standing scanner ahead
      ∃ m', (Work.parse mode).run.run m = some (mode.parse m.text, m') ∧
        m'.asked ≤ (Scanner.ofString m.text).tokens.list.length + 1 ∧ Orderly m'.visits := by
  refine ⟨fun c scanner ahead => ?_, fun mode scanner ahead => ?_⟩
  · let m := Machine.standing scanner ahead
    have total : m.asked + m.left = m.left := Nat.zero_add _
    have stands : m.Stands m.left m.asked Routine.topWeight :=
      ⟨total, Work.orderly_nil, fun _ mem => (nomatch mem), Nat.le_refl _⟩
    obtain ⟨outcome, m', run, yields⟩ := Work.perform_yields c stands
    refine ⟨outcome, m', run, ?_⟩
    cases outcome with
    | error f => exact ⟨yields.1, yields.2, fun _ h => nomatch h⟩
    | ok result =>
      refine ⟨yields.asked_le, yields.orderly, fun _ _ => ⟨?_, yields.total_eq⟩⟩
      exact Nat.le_trans (Nat.le_add_left _ _) yields.least_le
  · let m := Machine.standing scanner ahead
    obtain ⟨m', run, -⟩ := Work.parse_run mode m
    obtain ⟨outcome, m'', run', yields⟩ := Work.parse_yields mode (m := m) rfl
    rw [run] at run'
    obtain ⟨rfl, rfl⟩ := Prod.mk.inj (Option.some.inj run')
    have within : m'.asked ≤ m.limit ∧ Orderly m'.visits := by
      generalize mode.parse m.text = outcome at yields
      cases outcome <;> exact yields
    refine ⟨m', run, ?_, within.2⟩
    have limit : m.limit = 0 + ((Scanner.ofString m.text).tokens.list.length + 1) := by
      rw [Machine.limit, m.rewind_eq]
      rfl
    exact within.1.trans (by rw [limit, Nat.zero_add])

end TweenScript
