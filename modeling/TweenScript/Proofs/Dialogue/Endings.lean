import TweenScript.Proofs.Dialogue.Readers
import TweenScript.Proofs.Lexing.Places

/-!
# How parsing ends

The dialogue about a text, held with the scanner of the text, comes to what the parser comes to and leaves the
scanner where the parser leaves it (`ParseMode.hold_eq`). The item asked for last decides what the outcome
is (`Ending.exists_item`).
-/

namespace TweenScript

/-! ## Items of a text -/

/-- The item that the tokens end with: a fault, or the end of the text. -/
def Tokens.stop (ts : Tokens) : Item :=
  match ts.fault with
  | some f => .fault f
  | none => .finish

/-- The items up to the first fault or to the end of the text, each with the scanner behind it. -/
def Tokens.items (ts : Tokens) : List (Item × Scanner) :=
  ts.list.map (fun p => (.token p.1, p.2)) ++ [(ts.stop, ts.last)]

theorem Tokens.length_items (ts : Tokens) : ts.items.length = ts.list.length + 1 := by
  simp [items]

/-- Where a scanner stands before its items, and behind each of them. -/
def Scanner.places (s : Scanner) : List Scanner :=
  s :: s.tokens.items.map (·.2)

theorem Scanner.places_last (s : Scanner) :
    s.places[s.tokens.list.length + 1]? = some s.tokens.last := by
  simp [places, Tokens.items]

variable {α : Type} {s s' : Scanner}

theorem Scanner.places_token {used back : List (Token × Scanner)} {t : Token}
    (split : s.tokens.list = used ++ (t, s') :: back) :
    s.places[used.length + 1]? = some s' := by
  simp [places, Tokens.items, split]

theorem Scanner.tokens_items_of_token {t : Token} (h : s.next = (.token t, s')) :
    s.tokens.items = (.token t, s') :: s'.tokens.items := by
  rw [tokens_of_token h]
  rfl

theorem Scanner.tokens_items_of_fault {f : Fault} (h : s.next = (.fault f, s')) :
    s.tokens.items = [(.fault f, s')] := by
  rw [tokens_of_fault h]
  rfl

theorem Scanner.tokens_items_of_finish (h : s.next = (.finish, s')) :
    s.tokens.items = [(.finish, s')] := by
  rw [tokens_of_finish h]
  rfl

theorem Scanner.places_of_token {t : Token} (h : s.next = (.token t, s')) :
    s.places = s :: s'.places := by
  rw [places, tokens_items_of_token h]
  rfl

theorem Scanner.length_tokens_le (s : Scanner) : s.tokens.list.length ≤ s.rest.length := by
  rcases h : s.next with ⟨i, s'⟩
  cases i with
  | token t =>
    have shorter := next_rest_lt h (by simp)
    have le := length_tokens_le s'
    rw [tokens_of_token h, List.length_cons]
    omega
  | fault f =>
    rw [tokens_of_fault h]
    exact Nat.zero_le _
  | finish =>
    rw [tokens_of_finish h]
    exact Nat.zero_le _
termination_by s.rest.length

theorem Scanner.exists_tokens_items (s : Scanner) : ∃ tail,
    s.tokens.items = s.next :: tail ∧ ∀ t s', s.next = (.token t, s') → tail = s'.tokens.items := by
  rcases next : s.next with ⟨i, s'⟩
  cases i with
  | token t =>
    refine ⟨_, tokens_items_of_token next, ?_⟩
    rintro _ _ ⟨⟩
    rfl
  | fault f => exact ⟨_, tokens_items_of_fault next, fun _ _ h => by cases h⟩
  | finish => exact ⟨_, tokens_items_of_finish next, fun _ _ h => by cases h⟩

theorem Scanner.lexical_of_fault {s : Scanner} {f : Fault} (h : s.tokens.fault = some f) :
    ∃ p cause, f = .lexical p cause := by
  obtain ⟨i, s', step⟩ := exists_step s
  have next := next_of_step step
  cases step with
  | finish _ =>
    rw [tokens_of_finish next] at h
    cases h
  | token _ _ _ =>
    have shorter := next_rest_lt next (by simp)
    rw [tokens_of_token next] at h
    exact lexical_of_fault h
  | fault _ _ _ =>
    rw [tokens_of_fault next] at h
    cases h
    exact ⟨_, _, rfl⟩
termination_by s.rest.length

namespace Dialogue

theorem hold_of_token {reply : Option Token → Dialogue α} {t : Token}
    (h : s.next = (.token t, s')) : (ask reply).hold s =
      { (reply (some t)).hold s' with asked := ((reply (some t)).hold s').asked + 1 } := by
  rw [hold, h]

theorem hold_of_finish {reply : Option Token → Dialogue α} (h : s.next = (.finish, s')) :
    (ask reply).hold s =
      { (reply none).hold s' with asked := ((reply none).hold s').asked + 1 } := by
  rw [hold, h]

theorem hold_of_fault {reply : Option Token → Dialogue α} {f : Fault}
    (h : s.next = (.fault f, s')) : (ask reply).hold s = ⟨some (.error f), 1, s'⟩ := by
  rw [hold, h]

/-! ## Answers of a scanner -/

/-- A refusal is on the line where the scanner stands. -/
def place (s : Scanner) : Except GrammarCause α → Except Fault α
  | .ok a => .ok a
  | .error cause => .error (.grammar s.position.line cause)

/-- Short of a fault the answers of a scanner are its tokens. -/
theorem hold_eq_feed (d : Dialogue α) (s : Scanner)
    (short : (d.feed (s.tokens.list.map (·.1))).2 ≤ s.tokens.list.length ∨ s.tokens.fault = none) :
    (d.hold s).asked = (d.feed (s.tokens.list.map (·.1))).2 ∧
      (d.hold s).outcome = (d.feed (s.tokens.list.map (·.1))).1.map (place (d.hold s).scanner) := by
  induction d generalizing s with
  | value a => exact ⟨rfl, rfl⟩
  | refuse cause => exact ⟨rfl, rfl⟩
  | tired => exact ⟨rfl, rfl⟩
  | ask reply ih =>
    rcases next : s.next with ⟨i, s'⟩
    cases i with
    | token t =>
      rw [Scanner.tokens_of_token next] at short ⊢
      rw [hold_of_token next]
      obtain ⟨asked, outcome⟩ := ih (some t) s' (short.imp_left Nat.le_of_succ_le_succ)
      exact ⟨congrArg (· + 1) asked, outcome⟩
    | fault f =>
      rw [Scanner.tokens_of_fault next] at short
      rcases short with h | h
      · exact absurd h (Nat.not_succ_le_zero _)
      · cases h
    | finish =>
      have stays := Scanner.next_of_rest_nil (Scanner.rest_of_finish next)
      have rest := ih none s' (.inr (by rw [Scanner.tokens_of_finish stays]))
      rw [Scanner.tokens_of_finish stays] at rest
      rw [Scanner.tokens_of_finish next, hold_of_finish next]
      exact ⟨congrArg (· + 1) rest.1, rest.2⟩

theorem hold_eq_fault (d : Dialogue α) (s : Scanner) {f : Fault} (fault : s.tokens.fault = some f)
    (far : s.tokens.list.length < (d.feed (s.tokens.list.map (·.1))).2) :
    (d.hold s).asked = s.tokens.list.length + 1 ∧ (d.hold s).outcome = some (.error f) := by
  induction d generalizing s with
  | value a => exact absurd far (Nat.not_lt_zero _)
  | refuse cause => exact absurd far (Nat.not_lt_zero _)
  | tired => exact absurd far (Nat.not_lt_zero _)
  | ask reply ih =>
    rcases next : s.next with ⟨i, s'⟩
    cases i with
    | token t =>
      rw [Scanner.tokens_of_token next] at fault far ⊢
      rw [hold_of_token next]
      obtain ⟨asked, outcome⟩ := ih (some t) s' fault (Nat.lt_of_succ_lt_succ far)
      exact ⟨congrArg (· + 1) asked, outcome⟩
    | fault g =>
      rw [Scanner.tokens_of_fault next] at fault ⊢
      cases fault
      rw [hold_of_fault next]
      exact ⟨rfl, rfl⟩
    | finish =>
      rw [Scanner.tokens_of_finish next] at fault
      cases fault

theorem hold_scanner (d : Dialogue α) (s : Scanner) (le : (d.hold s).asked ≤ s.tokens.items.length) :
    s.places[(d.hold s).asked]? = some (d.hold s).scanner := by
  induction d generalizing s with
  | value a => rfl
  | refuse cause => rfl
  | tired => rfl
  | ask reply ih =>
    rcases next : s.next with ⟨i, s'⟩
    cases i with
    | token t =>
      rw [hold_of_token next] at le ⊢
      rw [Scanner.tokens_items_of_token next] at le
      rw [Scanner.places_of_token next]
      exact ih (some t) s' (Nat.le_of_succ_le_succ le)
    | fault f =>
      rw [hold_of_fault next, Scanner.places, Scanner.tokens_items_of_fault next]
      rfl
    | finish =>
      rw [hold_of_finish next] at le ⊢
      rw [Scanner.tokens_items_of_finish next] at le
      rw [Scanner.places, Scanner.tokens_items_of_finish next]
      have none_asked : ((reply none).hold s').asked = 0 :=
        Nat.le_zero.mp (Nat.le_of_succ_le_succ le)
      have rest := ih none s' (by rw [none_asked]; exact Nat.zero_le _)
      simp only [none_asked] at rest ⊢
      exact rest

theorem hold_at_end (d : Dialogue α) (s : Scanner)
    (all : (d.feed (s.tokens.list.map (·.1))).2 = s.tokens.list.length + 1) :
    (d.hold s).asked = s.tokens.list.length + 1 ∧ (d.hold s).scanner = s.tokens.last ∧
      (d.hold s).outcome = match s.tokens.fault with
        | some f => some (.error f)
        | none => (d.feed (s.tokens.list.map (·.1))).1.map (place s.tokens.last) := by
  have last (asked : (d.hold s).asked = s.tokens.list.length + 1) :
      (d.hold s).scanner = s.tokens.last := by
    have scanner := hold_scanner d s (by rw [asked, s.tokens.length_items])
    rw [asked, s.places_last] at scanner
    exact (Option.some.inj scanner).symm
  cases fault : s.tokens.fault with
  | some f =>
    obtain ⟨asked, outcome⟩ := hold_eq_fault d s fault (by omega)
    exact ⟨asked, last asked, outcome⟩
  | none =>
    obtain ⟨asked, outcome⟩ := hold_eq_feed d s (.inr fault)
    rw [all] at asked
    rw [last asked] at outcome
    exact ⟨asked, last asked, outcome⟩

theorem hold_at_token (d : Dialogue α) (s : Scanner) {used back : List (Token × Scanner)} {t : Token}
    {s' : Scanner} (split : s.tokens.list = used ++ (t, s') :: back)
    (some : (d.feed (s.tokens.list.map (·.1))).2 = used.length + 1) :
    (d.hold s).asked = used.length + 1 ∧ (d.hold s).scanner = s' ∧
      (d.hold s).outcome = (d.feed (s.tokens.list.map (·.1))).1.map (place s') := by
  have inside : used.length + 1 ≤ s.tokens.list.length := by
    rw [split, List.length_append, List.length_cons]
    omega
  obtain ⟨asked, outcome⟩ := hold_eq_feed d s (.inl (by omega))
  rw [some] at asked
  have scanner := hold_scanner d s (by rw [asked, s.tokens.length_items]; omega)
  rw [asked, Scanner.places_token split] at scanner
  have last := (Option.some.inj scanner).symm
  rw [last] at outcome
  exact ⟨asked, last, outcome⟩

end Dialogue

/-! ## How parsing ends -/

/-- How the reading of a text ends, after how many items, and where the scanner stands then. -/
inductive Ending {α : Type} (ts : Tokens) : Except Fault α → Nat → Scanner → Prop where
  /-- At a token that is refused. -/
  | token {used back : List (Token × Scanner)} {t : Token} {s : Scanner} {cause : GrammarCause}
    (split : ts.list = used ++ (t, s) :: back) :
    Ending ts (.error (.grammar s.position.line cause)) (used.length + 1) s
  | accepted {a : α} (noFault : ts.fault = none) :
    Ending ts (.ok a) (ts.list.length + 1) ts.last
  /-- At the end of the text, which is refused. -/
  | finish {cause : GrammarCause} (noFault : ts.fault = none) :
    Ending ts (.error (.grammar ts.last.position.line cause)) (ts.list.length + 1) ts.last
  | fault {f : Fault} (fault : ts.fault = some f) :
    Ending ts (.error f) (ts.list.length + 1) ts.last

/-- How many items the reading of the tokens takes: those up to the token that is refused, or all. -/
def Tokens.taken (ts : Tokens) : Except Refusal α → Nat
  | .ok _ => ts.list.length + 1
  | .error refusal => ts.list.length + 1 - refusal.rest.length

theorem conclude_token {ts : Tokens} {used back : List (Token × Scanner)} {t : Token}
    {s : Scanner} {left : List Token} {cause : GrammarCause}
    (split : ts.list = used ++ (t, s) :: back) (length : left.length = back.length + 1) :
    Parser.conclude ts (.error ⟨cause, left⟩ : Except Refusal α) =
      (.error (.grammar s.position.line cause), s) := by
  have dropped : ts.list.drop (ts.list.length - left.length) = (t, s) :: back := by
    have front : ts.list.length - left.length = used.length := by
      rw [split, length, List.length_append, List.length_cons]
      omega
    rw [front, split, List.drop_left]
  simp only [Parser.conclude, dropped]

theorem conclude_end {ts : Tokens} {cause : GrammarCause} :
    Parser.conclude ts (.error ⟨cause, []⟩ : Except Refusal α) =
      (.error (ts.fault.getD (.grammar ts.last.position.line cause)), ts.last) := by
  have dropped : ts.list.drop (ts.list.length - ([] : List Token).length) = [] := List.drop_length
  simp only [Parser.conclude, dropped]
  cases ts.fault <;> rfl

theorem conclude_ok {ts : Tokens} {a : α} :
    Parser.conclude ts (.ok a : Except Refusal α) =
      (match ts.fault with | some f => .error f | none => .ok a, ts.last) := by
  unfold Parser.conclude
  cases ts.fault <;> rfl

/-- A dialogue that concludes as the reading does comes to what the parser comes to. -/
theorem Dialogue.hold_eq {d : Dialogue α} {s : Scanner} {x : Except Refusal α}
    (h : Concludes (s.tokens.list.map (·.1)) x (d.feed (s.tokens.list.map (·.1)))) :
    d.hold s = ⟨some (Parser.conclude s.tokens x).1, s.tokens.taken x,
      (Parser.conclude s.tokens x).2⟩ ∧
      Ending s.tokens (Parser.conclude s.tokens x).1 (s.tokens.taken x)
        (Parser.conclude s.tokens x).2 := by
  have atEnd := hold_at_end d s
  have atToken {used back t s'} := @hold_at_token _ d s used back t s'
  generalize d.feed (s.tokens.list.map (·.1)) = r at h atEnd atToken
  cases h with
  | @ok a =>
    obtain ⟨asked, scanner, outcome⟩ := atEnd (by rw [List.length_map])
    rw [conclude_ok]
    cases fault : s.tokens.fault with
    | none =>
      rw [fault] at outcome
      exact ⟨Held.ext outcome asked scanner, .accepted fault⟩
    | some f =>
      rw [fault] at outcome
      exact ⟨Held.ext outcome asked scanner, .fault fault⟩
  | @error used left cause split =>
    cases left with
    | nil =>
      have length : used.length = s.tokens.list.length := by
        have same := congrArg List.length split
        rw [List.length_map, List.append_nil] at same
        exact same.symm
      obtain ⟨asked, scanner, outcome⟩ := atEnd (by rw [length])
      rw [conclude_end]
      cases fault : s.tokens.fault with
      | none =>
        rw [fault] at outcome
        exact ⟨Held.ext outcome asked scanner, .finish fault⟩
      | some f =>
        rw [fault] at outcome
        exact ⟨Held.ext outcome asked scanner, .fault fault⟩
    | cons t left =>
      obtain ⟨used', back, split', rfl, tail⟩ := List.map_eq_append_iff.mp split
      obtain ⟨⟨t', s'⟩, back, rfl, rfl, rfl⟩ := List.map_eq_cons_iff.mp tail
      obtain ⟨asked, scanner, outcome⟩ := atToken split' (by rw [List.length_map])
      have taken : s.tokens.taken (.error ⟨cause, t' :: back.map (·.1)⟩ : Except Refusal α) =
          used'.length + 1 := by
        simp only [Tokens.taken, split', List.length_append, List.length_cons, List.length_map]
        omega
      rw [taken, conclude_token split' (by simp)]
      exact ⟨Held.ext outcome asked scanner, .token split'⟩

namespace ParseMode

theorem parse_eq (m : ParseMode) (text : String) : m.parse text =
    (Parser.conclude (Scanner.ofString text).tokens
      (m.read ((Scanner.ofString text).tokens.list.map (·.1)))).1 := by
  cases m <;> rfl

/-- The dialogue about a text, if it may go deep enough, comes to what the parser comes to. -/
theorem hold_eq (m : ParseMode) (text : String) {n : Nat} (depth : 16 * text.length + 14 ≤ n) :
    let ts := (Scanner.ofString text).tokens
    let x := m.read (ts.list.map (·.1))
    (m.dialogue n).hold (.ofString text) =
        ⟨some (m.parse text), ts.taken x, (Parser.conclude ts x).2⟩ ∧
      Ending ts (m.parse text) (ts.taken x) (Parser.conclude ts x).2 := by
  have fewer := Scanner.length_tokens_le (.ofString text)
  have length : (Scanner.ofString text).rest.length = text.length := String.length_toList
  have concludes := m.concludes n ((Scanner.ofString text).tokens.list.map (·.1))
    (by rw [List.length_map]; omega)
  rw [m.parse_eq]
  exact Dialogue.hold_eq concludes

theorem hold_eq_held (m : ParseMode) (text : String) {n : Nat} (depth : 16 * text.length + 14 ≤ n) :
    (m.dialogue n).hold (.ofString text) = m.held text :=
  (m.hold_eq text depth).1.trans (m.hold_eq text (Nat.le_refl _)).1.symm

theorem held_outcome (m : ParseMode) (text : String) : (m.held text).outcome = some (m.parse text) :=
  congrArg Held.outcome (m.hold_eq text (Nat.le_refl _)).1

theorem held_scanner (m : ParseMode) (text : String) :
    (m.held text).scanner = ((Parser.ofString text).run m.read).2.scanner :=
  congrArg Held.scanner (m.hold_eq text (Nat.le_refl _)).1

theorem ending (m : ParseMode) (text : String) :
    Ending (Scanner.ofString text).tokens (m.parse text) (m.asked text) (m.held text).scanner := by
  obtain ⟨held, ends⟩ := m.hold_eq text (Nat.le_refl _)
  rw [asked, ParseMode.held, held]
  exact ends

end ParseMode

/-! ## The last item -/

/-- The last item that a parser has asked for, and what it has made of it. -/
theorem Ending.exists_item {ts : Tokens} {outcome : Except Fault α} {asked : Nat} {s : Scanner}
    (h : Ending ts outcome asked s) : ∃ i, ts.items[asked - 1]? = some (i, s) ∧
      ((∃ t cause, i = .token t ∧ outcome = .error (.grammar s.position.line cause)) ∨
        (i = .finish ∧ ts.fault = none ∧ s = ts.last ∧ asked = ts.items.length ∧
          ((∃ a, outcome = .ok a) ∨ ∃ cause, outcome = .error (.grammar s.position.line cause))) ∨
        ∃ f, i = .fault f ∧ ts.fault = some f ∧ outcome = .error f) := by
  have last : ts.items[ts.list.length + 1 - 1]? = some (ts.stop, ts.last) := by
    simp [Tokens.items]
  cases h with
  | @token used back t s cause split =>
    exact ⟨.token t, by simp [Tokens.items, split], .inl ⟨t, cause, rfl, rfl⟩⟩
  | @accepted a noFault =>
    have stop : ts.stop = .finish := by rw [Tokens.stop, noFault]
    exact ⟨_, last, .inr (.inl ⟨stop, noFault, rfl, ts.length_items.symm, .inl ⟨a, rfl⟩⟩)⟩
  | @finish cause noFault =>
    have stop : ts.stop = .finish := by rw [Tokens.stop, noFault]
    exact ⟨_, last, .inr (.inl ⟨stop, noFault, rfl, ts.length_items.symm, .inr ⟨cause, rfl⟩⟩)⟩
  | @fault f fault =>
    have stop : ts.stop = .fault f := by rw [Tokens.stop, fault]
    exact ⟨_, last, .inr (.inr ⟨f, stop, fault, rfl⟩)⟩

theorem Ending.asked_le {ts : Tokens} {outcome : Except Fault α} {asked : Nat} {s : Scanner}
    (h : Ending ts outcome asked s) : 0 < asked ∧ asked ≤ ts.items.length := by
  rw [ts.length_items]
  cases h with
  | token split =>
    rw [split, List.length_append, List.length_cons]
    omega
  | accepted _ => exact ⟨Nat.succ_pos _, Nat.le_refl _⟩
  | finish _ => exact ⟨Nat.succ_pos _, Nat.le_refl _⟩
  | fault _ => exact ⟨Nat.succ_pos _, Nat.le_refl _⟩

/-- The items of a text, up to the first fault. -/
def itemsOf (text : String) : List Item :=
  (Scanner.ofString text).tokens.items.map (·.1)

namespace ParseMode

theorem asked_le (m : ParseMode) (text : String) :
    0 < m.asked text ∧ m.asked text ≤ (itemsOf text).length := by
  rw [itemsOf, List.length_map]
  exact (m.ending text).asked_le

/-- A lexical fault is what the parser fails with exactly if it is the last item that it asks for. -/
theorem parse_eq_lexical_iff {m : ParseMode} {text : String} {p : Position} {cause : LexicalCause} :
    m.parse text = .error (.lexical p cause) ↔
      (itemsOf text)[m.asked text - 1]? = some (.fault (.lexical p cause)) := by
  obtain ⟨i, item, cases⟩ := (m.ending text).exists_item
  rw [itemsOf, List.getElem?_map, item]
  rcases cases with ⟨t, cause, rfl, outcome⟩ | ⟨rfl, -, -, -, ⟨a, outcome⟩ | ⟨cause, outcome⟩⟩ |
    ⟨f, rfl, -, outcome⟩
  all_goals
    rw [outcome]
    simp

end ParseMode

end TweenScript
