import TweenScript.Proofs.Cursor.Dialogues

/-!
# Places of faults

A fault names a place of its text (`ParseMode.fault_place`): the first byte of the lexeme that is none, which
stands next behind the items asked for before, or the line where the last item ends that was asked for. The
scanner stands at a place of the text before every item (`Scanner.Stands.exists_of_item`), and the grammar of
lexemes says what is there. A cursor over the bytes of the text stands there as well, and with it parsing
comes to the same fault.
-/

namespace TweenScript

open Lexical

/-- Where the fault `f` is in `text`, if the item that it came up with is `i` and the scanner `s` stands before
this item. -/
inductive Fault.Placed (text : String) (s : Scanner) : Item → Fault → Prop where
  /-- Where the lexeme begins that stands behind the next gap. -/
  | lexical {p : Position} {cause : LexicalCause} {front gap lexeme back : String}
    (split : text = front ++ gap ++ lexeme ++ back) (before : s.position.Marks text front)
    (longest : LongestGap gap.toList (lexeme.toList ++ back.toList))
    (lexes : Lexes lexeme.toList back.toList (.error cause))
    (offset : p.offset = (front ++ gap).utf8ByteSize) (boundary : OnBoundary text p.offset)
    (inside : p.offset < text.utf8ByteSize) (counted : p.line = 1 + (front ++ gap).toList.count '\n') :
    Placed text s (.fault (.lexical p cause)) (.lexical p cause)
  /-- On the line where the token ends that stands behind the next gap. -/
  | token {t : Token} {line : Nat} {cause : GrammarCause} {front gap lexeme back : String}
    (split : text = front ++ gap ++ lexeme ++ back) (before : s.position.Marks text front)
    (longest : LongestGap gap.toList (lexeme.toList ++ back.toList))
    (lexes : Lexes lexeme.toList back.toList (.ok t))
    (counted : line = 1 + (front ++ gap ++ lexeme).toList.count '\n') :
    Placed text s (.token t) (.grammar line cause)
  /-- On the last line of the text, behind the gap that it ends in. -/
  | finish {line : Nat} {cause : GrammarCause} {front gap : String} (split : text = front ++ gap)
    (before : s.position.Marks text front) (isGap : Gap gap.toList [])
    (counted : line = 1 + text.toList.count '\n') : Placed text s .finish (.grammar line cause)

theorem Lexical.Lexes.utf8ByteSize_pos {lexeme back : String} {content : Except LexicalCause Token}
    (lexes : Lexes lexeme.toList back.toList content) :
    0 < lexeme.utf8ByteSize + back.utf8ByteSize := by
  obtain ⟨c, cs, split, -⟩ := lexeme_of_lexes lexes
  rw [← utf8Length_toList, ← utf8Length_toList, ← utf8Length_append, split, utf8Length]
  have pos := c.utf8Size_pos
  omega

namespace Scanner

variable {text : String} {front : List Char} {s s' : Scanner} {i : Item}

/-- Before every item the scanner stands in the text. -/
theorem Stands.exists_of_item {s : Scanner} {front : List Char} (h : Stands text front s) {k : Nat}
    (item : s.tokens.items[k]? = some (i, s')) :
    ∃ e front', s.places[k]? = some e ∧ Stands text front' e ∧ e.next = (i, s') := by
  obtain ⟨tail, items, more⟩ := s.exists_tokens_items
  cases k with
  | zero =>
    rw [items] at item
    exact ⟨s, front, rfl, h, Option.some.inj item⟩
  | succ k =>
    rcases next : s.next with ⟨j, m⟩
    cases j with
    | token t =>
      have shorter := next_rest_lt next (by simp)
      obtain ⟨passed, -, stands⟩ := h.next next
      rw [tokens_items_of_token next] at item
      rw [places_of_token next]
      exact stands.exists_of_item item
    | fault f =>
      rw [tokens_items_of_fault next] at item
      cases item
    | finish =>
      rw [tokens_items_of_finish next] at item
      cases item
termination_by s.rest.length

theorem Stands.split_strings (h : Stands text front s) {gap rest : List Char}
    (split : s.rest = gap ++ rest) :
    text = String.ofList front ++ String.ofList gap ++ String.ofList rest := by
  rw [← String.ofList_append, ← String.ofList_append, List.append_assoc, ← split, ← h.split,
    String.ofList_toList]

theorem Stands.line (h : Stands text front s) (passed : List Char) :
    (s.position.past passed).line = 1 + (String.ofList front ++ String.ofList passed).toList.count '\n' := by
  rw [h.position, ← Position.past_append, ← String.ofList_append, String.toList_ofList]
  rfl

theorem Stands.placed_token (h : Stands text front s) {t : Token} (next : s.next = (.token t, s'))
    (cause : GrammarCause) : (Fault.grammar s'.position.line cause).Placed text s (.token t) := by
  cases step_of_next next with
  | @token gap lexeme rest t split longest lexes =>
    have strings := h.split_strings split
    rw [String.ofList_append, ← String.append_assoc] at strings
    refine .token strings h.marks ?_ ?_ ?_
    · rw [String.toList_ofList, String.toList_ofList, String.toList_ofList]
      exact longest
    · rw [String.toList_ofList, String.toList_ofList]
      exact lexes
    · rw [← Position.past_append, h.line, String.ofList_append, String.append_assoc]

theorem Stands.placed_finish (h : Stands text front s) (next : s.next = (.finish, s'))
    (cause : GrammarCause) : (Fault.grammar s'.position.line cause).Placed text s .finish := by
  cases step_of_next next with
  | finish longest =>
    have strings := h.split_strings (List.append_nil s.rest).symm
    rw [String.ofList_nil, String.append_empty] at strings
    refine .finish strings h.marks ?_ ?_
    · rw [String.toList_ofList]
      exact longest.isGap
    · rw [h.line, ← strings]

theorem Stands.placed_fault (h : Stands text front s) {f : Fault} (next : s.next = (.fault f, s')) :
    f.Placed text s (.fault f) := by
  cases step_of_next next with
  | @fault gap lexeme rest cause split longest lexes =>
    have strings := h.split_strings split
    rw [String.ofList_append, ← String.append_assoc] at strings
    have parts : text.toList = (front ++ gap) ++ (lexeme ++ rest) := by
      rw [h.split, split, List.append_assoc]
    have place := marks_past parts
    rw [Position.past_append, ← h.position, String.ofList_append] at place
    have lexes' : Lexes (String.ofList lexeme).toList (String.ofList rest).toList (.error cause) := by
      rw [String.toList_ofList, String.toList_ofList]
      exact lexes
    refine .lexical strings h.marks ?_ lexes' place.offset place.onBoundary ?_ place.line
    · rw [String.toList_ofList, String.toList_ofList, String.toList_ofList]
      exact longest
    · have some := lexes'.utf8ByteSize_pos
      rw [place.offset, strings]
      simp only [String.utf8ByteSize_append]
      omega

end Scanner

/-- A text that is not accepted goes wrong with the item that is asked for last, and the fault is where this
item is. A cursor has read up to there then. -/
theorem ParseMode.fault_place (m : ParseMode) {text : String} {f : Fault}
    (failed : m.parse text = .error f) :
    ∃ s i c, (Scanner.ofString text).places[m.asked text - 1]? = some s ∧
      (itemsOf text)[m.asked text - 1]? = some i ∧ f.Placed text s i ∧
      Cursor.ReadsAt text (m.asked text - 1) s.position i c ∧ m.led text = some (.error f, c) := by
  obtain ⟨i, item, cases⟩ := (m.ending text).exists_item
  obtain ⟨s, front, place, stands, next⟩ := (Scanner.stands_ofString text).exists_of_item item
  obtain ⟨c, led, shows⟩ := m.led_eq text
  rw [failed] at cases led
  refine ⟨s, i, c, place, by rw [itemsOf, List.getElem?_map, item]; rfl, ?_,
    Cursor.readsAt_of_place place next shows, led⟩
  rcases cases with ⟨t, cause, rfl, outcome⟩ | ⟨rfl, -, -, -, ⟨a, outcome⟩ | ⟨cause, outcome⟩⟩ |
    ⟨g, rfl, -, outcome⟩
  · cases outcome
    exact stands.placed_token next cause
  · cases outcome
  · cases outcome
    exact stands.placed_finish next cause
  · cases outcome
    exact stands.placed_fault next

/-- A comment that is not closed, behind a name, on the second of three lines. -/
theorem ParseMode.fault_place_of_comment :
    let text := "a // é\n /*\n*"
    let f := Fault.lexical ⟨2, 9⟩ .unclosedComment
    ParseMode.program.parse text = .error f ∧
    ∃ s i c, (Scanner.ofString text).places[ParseMode.program.asked text - 1]? = some s ∧
      (itemsOf text)[ParseMode.program.asked text - 1]? = some i ∧ f.Placed text s i ∧
      Cursor.ReadsAt text (ParseMode.program.asked text - 1) s.position i c ∧
      ParseMode.program.led text = some (.error f, c) := by
  intro text f
  have failed : ParseMode.program.parse text = .error f :=
    ParseMode.parse_eq_lexical_iff.mpr (by decide +kernel)
  exact ⟨failed, ParseMode.program.fault_place failed⟩

end TweenScript
