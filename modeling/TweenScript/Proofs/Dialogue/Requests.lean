import Mathlib.Data.List.Forall2
import TweenScript.Proofs.Dialogue.Endings

/-!
# What a parser asks for

A dialogue knows of a text what it has asked for, so two texts that begin with the same items come to the
same as long as no other items are asked for (`Dialogue.hold_alike`). With what is known of the last
item, a parse error depends on the text up to the offending token (`ParseMode.parse_requests`).
-/

namespace TweenScript

variable {α : Type}

/-! ## Texts that begin alike -/

/-- Faults with the same cause, wherever they are. -/
inductive Fault.Alike : Fault → Fault → Prop where
  | lexical (p p' : Position) (cause : LexicalCause) : Alike (.lexical p cause) (.lexical p' cause)
  | grammar (line line' : Nat) (cause : GrammarCause) :
    Alike (.grammar line cause) (.grammar line' cause)

/-- The same items, wherever they are. -/
inductive Item.Alike : Item → Item → Prop where
  | token (t : Token) : Alike (.token t) (.token t)
  | fault {f f' : Fault} (alike : f.Alike f') : Alike (.fault f) (.fault f')
  | finish : Alike .finish .finish

/-- The same tree, or faults with the same cause. -/
inductive AlikeOutcome {α : Type} : Except Fault α → Except Fault α → Prop where
  | ok (a : α) : AlikeOutcome (.ok a) (.ok a)
  | error {f f' : Fault} (alike : f.Alike f') : AlikeOutcome (.error f) (.error f')

/-- A dialogue sees of a text what it asks for and nothing else. -/
theorem Dialogue.hold_alike (d : Dialogue α) (s s' : Scanner)
    (le : (d.hold s).asked ≤ s.tokens.items.length)
    (alike : List.Forall₂ Item.Alike ((s.tokens.items.map (·.1)).take (d.hold s).asked)
      ((s'.tokens.items.map (·.1)).take (d.hold s).asked)) :
    (d.hold s').asked = (d.hold s).asked ∧
      Option.Rel AlikeOutcome (d.hold s).outcome (d.hold s').outcome := by
  induction d generalizing s s' with
  | value a => exact ⟨rfl, .some (.ok a)⟩
  | refuse cause => exact ⟨rfl, .some (.error (.grammar _ _ cause))⟩
  | tired => exact ⟨rfl, .none⟩
  | ask reply ih =>
    obtain ⟨tail, items, more⟩ := s.exists_tokens_items
    obtain ⟨tail', items', more'⟩ := s'.exists_tokens_items
    rcases next : s.next with ⟨i, m⟩
    rcases next' : s'.next with ⟨i', m'⟩
    rw [items, next] at le alike
    rw [items', next'] at alike
    cases i with
    | token t =>
      rw [hold_of_token next] at le alike ⊢
      simp only [List.map_cons, List.take_succ_cons, List.forall₂_cons] at alike
      obtain ⟨first, rest⟩ := alike
      cases first
      rw [hold_of_token next']
      rw [more t m next] at le rest
      rw [more' t m' next'] at rest
      obtain ⟨asked, outcome⟩ := ih (some t) m m' (Nat.le_of_succ_le_succ le) rest
      exact ⟨congrArg (· + 1) asked, outcome⟩
    | fault f =>
      rw [hold_of_fault next] at alike ⊢
      simp only [List.map_cons, List.take_succ_cons, List.forall₂_cons] at alike
      obtain ⟨first, -⟩ := alike
      cases first with
      | fault same =>
        rw [hold_of_fault next']
        exact ⟨rfl, .some (.error same)⟩
    | finish =>
      rw [hold_of_finish next] at le alike ⊢
      simp only [List.map_cons, List.take_succ_cons, List.forall₂_cons] at alike
      obtain ⟨first, -⟩ := alike
      cases first
      rw [hold_of_finish next']
      have one := s.tokens_items_of_finish next
      rw [items] at one
      obtain ⟨-, rfl⟩ := List.cons.inj one
      -- nothing is asked for behind the end
      have none : ((reply .none).hold m).asked = 0 := Nat.le_zero.mp (Nat.le_of_succ_le_succ le)
      obtain ⟨asked, outcome⟩ := ih .none m m' (by rw [none]; exact Nat.zero_le _)
        (by rw [none]; exact .nil)
      exact ⟨congrArg (· + 1) asked, outcome⟩

/-! ## What has been asked for -/

namespace ParseMode

variable {m : ParseMode} {text : String}

theorem length_of_fault {k : Nat} {f : Fault} (h : (itemsOf text)[k]? = some (.fault f)) :
    k + 1 = (itemsOf text).length := by
  have bound := (List.getElem?_eq_some_iff.mp h).1
  rw [itemsOf, List.length_map, Tokens.length_items] at bound ⊢
  by_contra before
  have inside : k < (Scanner.ofString text).tokens.list.length := by omega
  simp [itemsOf, Tokens.items, List.getElem?_append_left, inside] at h

theorem not_mem_of_grammar {line : Nat} {cause : GrammarCause}
    (failed : m.parse text = .error (.grammar line cause)) (f : Fault) :
    .fault f ∉ (itemsOf text).take (m.asked text) := by
  intro mem
  obtain ⟨k, hk⟩ := List.getElem?_of_mem mem
  rw [List.getElem?_take] at hk
  split at hk
  · rename_i before
    have length := length_of_fault hk
    have le := (m.asked_le text).2
    have last : k = m.asked text - 1 := by omega
    obtain ⟨i, item, cases⟩ := (m.ending text).exists_item
    rw [itemsOf, List.getElem?_map, last, item] at hk
    obtain rfl : i = .fault f := Option.some.inj hk
    rcases cases with ⟨t, cause, isToken, -⟩ | ⟨isFinish, -⟩ | ⟨g, same, fault, outcome⟩
    · cases isToken
    · cases isFinish
    · obtain ⟨p, cause', rfl⟩ := Scanner.lexical_of_fault fault
      rw [failed] at outcome
      cases outcome
  · cases hk

theorem asked_of_ok {a : m.Tree} (parsed : m.parse text = .ok a) :
    m.asked text = (itemsOf text).length ∧ (itemsOf text).getLast? = some .finish ∧
      (itemsOf text).count .finish = 1 := by
  obtain ⟨i, item, cases⟩ := (m.ending text).exists_item
  rw [parsed] at cases
  rcases cases with ⟨t, cause, -, outcome⟩ | ⟨rfl, noFault, -, all, -⟩ | ⟨f, -, -, outcome⟩
  · cases outcome
  · have stop : (Scanner.ofString text).tokens.stop = .finish := by rw [Tokens.stop, noFault]
    have tokens (list : List (Token × Scanner)) :
        (list.map fun p => Item.token p.1).count .finish = 0 := by
      rw [List.count_eq_zero]
      simp
    refine ⟨by rw [all, itemsOf, List.length_map], ?_, ?_⟩
    · simp [itemsOf, Tokens.items, stop]
    · simp [itemsOf, Tokens.items, stop, List.count_append, Function.comp_def, tokens]
  · cases outcome

end ParseMode

theorem ParseMode.parse_alike (m : ParseMode) {text text' : String}
    (alike : List.Forall₂ Item.Alike ((itemsOf text).take (m.asked text))
      ((itemsOf text').take (m.asked text))) :
    m.asked text' = m.asked text ∧ AlikeOutcome (m.parse text) (m.parse text') := by
  -- one dialogue that is deep enough for both texts
  have deep := m.hold_eq_held text (Nat.le_max_left (16 * text.length + 14) (16 * text'.length + 14))
  have deep' := m.hold_eq_held text' (Nat.le_max_right (16 * text.length + 14) _)
  have le := (m.asked_le text).2
  rw [itemsOf, List.length_map] at le
  obtain ⟨asked, outcome⟩ := Dialogue.hold_alike _ _ (.ofString text')
    (by rw [deep]; exact le) (by rw [deep]; exact alike)
  rw [deep, deep'] at asked
  rw [deep, deep', m.held_outcome, m.held_outcome] at outcome
  cases outcome with
  | some alike => exact ⟨asked, alike⟩

/-- What a parser makes of a text depends on the items that it asks for and on nothing else: where it fails,
it fails in the same way on every text that begins with these items. A lexical fault is the last of them, a
refusal comes before any fault, and a text that is accepted is asked for up to its end. The first part says that
the dialogue with the scanner is what the parser does. -/
theorem ParseMode.parse_requests (m : ParseMode) (text : String) :
    ((m.held text).outcome = some (m.parse text) ∧
      (m.held text).scanner = ((Parser.ofString text).run m.read).2.scanner) ∧
    (0 < m.asked text ∧ m.asked text ≤ (itemsOf text).length) ∧
    (∀ (text' : String) (f : Fault), m.parse text = .error f →
      List.Forall₂ Item.Alike ((itemsOf text).take (m.asked text))
        ((itemsOf text').take (m.asked text)) →
      m.asked text' = m.asked text ∧ ∃ f', m.parse text' = .error f' ∧ f.Alike f') ∧
    (∀ p cause, m.parse text = .error (.lexical p cause) ↔
      (itemsOf text)[m.asked text - 1]? = some (.fault (.lexical p cause))) ∧
    (∀ line cause, m.parse text = .error (.grammar line cause) →
      ∀ f, .fault f ∉ (itemsOf text).take (m.asked text)) ∧
    ∀ a, m.parse text = .ok a → m.asked text = (itemsOf text).length ∧
      (itemsOf text).getLast? = some .finish ∧ (itemsOf text).count .finish = 1 := by
  refine ⟨⟨m.held_outcome text, m.held_scanner text⟩, m.asked_le text, fun text' f failed same => ?_,
    fun p cause => ?_, fun line cause failed f => ?_, fun a parsed => ?_⟩
  · obtain ⟨asked, outcome⟩ := m.parse_alike same
    rw [failed] at outcome
    generalize m.parse text' = outcome' at outcome
    cases outcome with
    | error alike => exact ⟨asked, _, rfl, alike⟩
  · exact ParseMode.parse_eq_lexical_iff
  · exact ParseMode.not_mem_of_grammar failed f
  · exact ParseMode.asked_of_ok parsed

/-- Two texts that differ behind the token that is refused, in their faults too. -/
theorem ParseMode.parse_requests_before_faults :
    let text := "a b #"
    let text' := "a // no\nb 0x;"
    ParseMode.program.parse text = .error (.grammar 1 .missingSemicolon) ∧
    ParseMode.program.asked text = 2 ∧ ParseMode.program.asked text' = 2 ∧
    ∃ f', ParseMode.program.parse text' = .error f' ∧
      Fault.Alike (.grammar 1 .missingSemicolon) f' := by
  intro text text'
  have asked : ParseMode.program.asked text = 2 := by decide +kernel
  have failed : ParseMode.program.parse text = .error (.grammar 1 .missingSemicolon) := by
    have fault : (ParseMode.program.held text).outcome.bind
        (fun | .error f => some f | .ok _ => none) = some (.grammar 1 .missingSemicolon) := by
      decide +kernel
    rw [ParseMode.held_outcome] at fault
    cases parsed : ParseMode.program.parse text with
    | error f =>
      rw [parsed] at fault
      exact congrArg _ (Option.some.inj fault)
    | ok n =>
      rw [parsed] at fault
      cases fault
  have first : (itemsOf text).take 2 = [.token (.identifier "a"), .token (.identifier "b")] := by
    decide +kernel
  have first' : (itemsOf text').take 2 = [.token (.identifier "a"), .token (.identifier "b")] := by
    decide +kernel
  obtain ⟨-, -, prefixes, -⟩ := ParseMode.program.parse_requests text
  have same := prefixes text' _ failed (by
    rw [asked, first, first']
    exact .cons (.token _) (.cons (.token _) .nil))
  rw [asked] at same
  exact ⟨failed, asked, same⟩

end TweenScript
