import Mathlib.Data.List.Forall2
import Mathlib.Logic.Relation
import TweenScript.Program.Parser
import TweenScript.Proofs.Lexing.Lexemes
import TweenScript.Proofs.Scanning

/-!
# Separators

Blanks and closed comments put between two tokens change nothing but the positions of what follows
(`separator_transparent`). A token looks at one character behind itself, and a separator begins with a blank,
which continues no token; behind the separator the text is the same at another position.
-/

namespace TweenScript

/-! ## Positions -/

theorem Position.past_comm (p : Position) (xs ys : List Char) :
    (p.past xs).past ys = (p.past ys).past xs := by
  simp only [Position.past, Position.mk.injEq]
  omega

theorem utf8Length_eq_zero_iff {cs : List Char} : utf8Length cs = 0 ↔ cs = [] := by
  cases cs with
  | nil => simp [utf8Length]
  | cons c cs =>
    have pos := c.utf8Size_pos
    simp only [utf8Length, List.cons_ne_nil, iff_false]
    omega

theorem eq_of_utf8Length_eq {xs ys xs' ys' : List Char} (text : xs ++ ys = xs' ++ ys')
    (length : utf8Length xs = utf8Length xs') : xs = xs' ∧ ys = ys' := by
  have same : xs = xs' := by
    rcases List.append_eq_append_iff.mp text with ⟨more, rfl, -⟩ | ⟨more, rfl, -⟩
    · have none : utf8Length more = 0 := by
        rw [utf8Length_append] at length
        omega
      rw [utf8Length_eq_zero_iff.mp none, List.append_nil]
    · have none : utf8Length more = 0 := by
        rw [utf8Length_append] at length
        omega
      rw [utf8Length_eq_zero_iff.mp none, List.append_nil]
  subst same
  exact ⟨rfl, List.append_cancel_left text⟩

namespace Lexical

/-! ## One character ahead -/

/-- The characters that may stand between tokens. -/
def blanks : List Char :=
  [' ', '\t', '\r', '\n']

/-- Behind a lexeme, `rest'` begins like `rest` or with a blank. -/
def Admits (rest rest' : List Char) : Prop :=
  ∃ c, rest'.head? = some c ∧ (rest.head? = some c ∨ c ∈ blanks)

section admits

variable {front rest rest' : List Char}

theorem Admits.prepend (h : Admits rest rest') (front : List Char) :
    Admits (front ++ rest) (front ++ rest') := by
  cases front with
  | nil => exact h
  | cons c front => exact ⟨c, rfl, .inl rfl⟩

theorem Admits.head?_ne (h : Admits rest rest') {c : Char} (noBlank : c ∉ blanks)
    (other : rest.head? ≠ some c) : rest'.head? ≠ some c := by
  obtain ⟨d, hd, hrest⟩ := h
  intro hc
  rw [hd] at hc
  cases hc
  exact hrest.elim other noBlank

theorem Admits.begins (h : Admits rest rest') {word : List Char}
    (length : word.length ≤ front.length + 1) (noBlank : ∀ c ∈ word, c ∉ blanks)
    (found : word <+: front ++ rest') : word <+: front ++ rest := by
  induction front generalizing word with
  | nil =>
    cases word with
    | nil => exact List.nil_prefix
    | cons c word =>
      obtain rfl : word = [] := by simpa using length
      obtain ⟨more, rfl⟩ := found
      have head : rest.head? = some c := by
        by_contra other
        exact h.head?_ne (noBlank c (by simp)) other rfl
      obtain ⟨tail, rfl⟩ := List.head?_eq_some_iff.mp head
      exact ⟨tail, rfl⟩
  | cons d front ih =>
    cases word with
    | nil => exact List.nil_prefix
    | cons c word =>
      rw [List.cons_append, List.cons_prefix_cons] at found ⊢
      have shorter : word.length ≤ front.length + 1 := by simpa using length
      exact ⟨found.1, ih shorter (fun e he => noBlank e (List.mem_cons_of_mem c he)) found.2⟩

theorem Spans.admits {p : Char → Prop} {run : List Char} (spans : Spans p run rest)
    (h : Admits rest rest') (noBlank : ∀ c ∈ blanks, ¬ p c) : Spans p run rest' where
  inside := spans.inside
  ends c hc := by
    intro continues
    have blank : c ∉ blanks := fun mem => noBlank c mem continues
    exact h.head?_ne blank (fun head => spans.ends c head continues) hc

theorem Suffix.admits {suffix : List Char} (ends : Suffix suffix rest) (h : Admits rest rest') :
    Suffix suffix rest' := by
  cases ends with
  | mark => exact .mark
  | none other => exact .none (h.head?_ne (by decide) other)

theorem not_wordPart_of_blank (c : Char) (h : c ∈ blanks) : ¬ WordPart c := by
  have none : blanks.any continuesWord = false := by decide
  rw [← continuesWord_iff]
  exact List.any_eq_false.mp none c h

theorem not_hexDigit_of_blank (c : Char) (h : c ∈ blanks) : ¬ HexDigit c := by
  have none : blanks.any isHexDigit = false := by decide
  rw [← isHexDigit_iff]
  exact List.any_eq_false.mp none c h

theorem not_isDigit_of_blank (c : Char) (h : c ∈ blanks) : ¬ c.isDigit := by
  have none : blanks.any Char.isDigit = false := by decide
  exact List.any_eq_false.mp none c h

theorem spellings_short {p : List Char × Token} (h : p ∈ spellings) :
    0 < p.1.length ∧ p.1.length ≤ 2 ∧ ∀ c ∈ p.1, c ∉ blanks := by
  have all : ∀ word ∈ spellings.map (·.1),
      0 < word.length ∧ word.length ≤ 2 ∧ word.any (· ∈ blanks) = false := by decide
  obtain ⟨some, short, noBlank⟩ := all p.1 (List.mem_map_of_mem h)
  exact ⟨some, short, fun c hc blank => List.any_eq_false.mp noBlank c hc (decide_eq_true blank)⟩

theorem Lexes.admits {t : Token} (lexes : Lexes front rest (.ok t)) (h : Admits rest rest') :
    Lexes front rest' (.ok t) := by
  generalize content : Except.ok t = result at lexes
  cases lexes with
  | word begins spans => exact .word begins (spans.admits h not_wordPart_of_blank)
  | hex marked spans nonempty fits =>
    exact .hex marked (spans.admits h not_hexDigit_of_blank) nonempty fits
  | badHex marked spans bad => cases content
  | @whole run suffix _ decimal spans nonempty noPoint ends =>
    have behind : Admits (suffix ++ rest) (suffix ++ rest') := h.prepend suffix
    have some : 1 ≤ run.length := List.length_pos_iff.mpr nonempty
    have decimal' : ¬ BeginsHex (run ++ (suffix ++ rest')) := by
      rintro (marked | marked)
      · exact decimal (.inl (behind.begins (by simpa using some) (by simp [blanks]) marked))
      · exact decimal (.inr (behind.begins (by simpa using some) (by simp [blanks]) marked))
    exact .whole decimal' (spans.admits behind not_isDigit_of_blank) nonempty
      (behind.head?_ne (by decide) noPoint) (ends.admits h)
  | @fraction run fraction suffix _ all nonempty spans ends =>
    have behind : Admits (suffix ++ rest) (suffix ++ rest') := h.prepend suffix
    exact .fraction all nonempty (spans.admits behind not_isDigit_of_blank) (ends.admits h)
  | spelling mem longest noComment =>
    have some : 1 ≤ front.length := (spellings_short mem).1
    refine .spelling mem (fun p hp found => ?_) fun found => ?_
    · obtain ⟨-, short, noBlank⟩ := spellings_short hp
      exact longest p hp (h.begins (by omega) noBlank found)
    · exact noComment (h.begins (by simpa using some) (by simp [blanks]) found)
  | unclosedComment _ => cases content
  | unknownCharacter _ _ _ => cases content

/-! ## What is before a token -/

theorem Lexes.not_comment {t : Token} (lexes : Lexes front rest (.ok t)) :
    front ≠ [] ∧ ¬ ['/', '*'] <+: front ++ rest := by
  have other {c : Char} {cs : List Char} (h : c ≠ '/') : ¬ ['/', '*'] <+: c :: cs := by
    rintro ⟨more, he⟩
    cases he
    exact h rfl
  have digit {run cs : List Char} (all : ∀ c ∈ run, c.isDigit) (nonempty : run ≠ []) :
      ¬ ['/', '*'] <+: run ++ cs := by
    obtain ⟨c, run, rfl⟩ := List.exists_cons_of_ne_nil nonempty
    refine other ?_
    rintro rfl
    exact absurd (all '/' List.mem_cons_self) (by decide)
  generalize content : Except.ok t = result at lexes
  cases lexes with
  | @word first run _ begins spans =>
    refine ⟨List.cons_ne_nil _ _, other ?_⟩
    rintro rfl
    exact absurd ((beginsWord_iff '/').mpr begins) (by decide)
  | hex marked spans nonempty fits => exact ⟨List.cons_ne_nil _ _, other (by decide)⟩
  | badHex marked spans bad => cases content
  | @whole run suffix _ decimal spans nonempty noPoint ends =>
    rw [List.append_assoc]
    exact ⟨List.append_ne_nil_of_left_ne_nil nonempty _, digit spans.inside nonempty⟩
  | @fraction run fraction suffix _ all nonempty spans ends =>
    rw [List.append_assoc]
    exact ⟨List.append_ne_nil_of_left_ne_nil nonempty _, digit all nonempty⟩
  | spelling mem longest noComment =>
    exact ⟨List.ne_nil_of_length_pos (spellings_short mem).1, noComment⟩
  | unclosedComment _ => cases content
  | unknownCharacter _ _ _ => cases content

theorem Gap.before {gap : List Char} (h : Gap gap rest) (some : rest ≠ []) (rest' : List Char) :
    Gap gap rest' := by
  induction h with
  | nil => exact .nil
  | blank hc _ ih => exact .blank hc (ih some)
  | line body _ ih => exact .line body (ih some)
  | lastLine _ => exact absurd rfl some
  | block body _ ih => exact .block body (ih some)

theorem trivia_eq_zero_iff {c : Char} {cs : List Char} (noComment : ¬ ['/', '*'] <+: c :: cs) :
    trivia (c :: cs) = 0 ↔ c ∉ blanks ∧ ¬ ['/', '/'] <+: c :: cs := by
  by_cases line : ['/', '/'] <+: c :: cs
  · obtain ⟨more, he⟩ := line
    obtain ⟨rfl, rfl⟩ : '/' = c ∧ '/' :: more = cs := List.cons.inj he
    rw [trivia.eq_2]
    simp
  · have noLine (more : List Char) (hc : c = '/') (hcs : cs = '/' :: more) : False :=
      line ⟨more, by rw [hc, hcs]; rfl⟩
    have noBlock (more : List Char) (hc : c = '/') (hcs : cs = '*' :: more) : False :=
      noComment ⟨more, by rw [hc, hcs]; rfl⟩
    rw [trivia.eq_4 c cs noLine noBlock, ← not_iff_not]
    simp [line, isGap_iff, blanks]

/-- The longest gap before a token is the longest one as well if the text behind the token is
another one. -/
theorem LongestGap.admits {t : Token} {gap : List Char} (longest : LongestGap gap (front ++ rest))
    (lexes : Lexes front rest (.ok t)) (h : Admits rest rest') :
    LongestGap gap (front ++ rest') := by
  obtain ⟨isGap, none⟩ := longestGap_iff.mp longest
  obtain ⟨some, noComment⟩ := lexes.not_comment
  obtain ⟨c, front, rfl⟩ := List.exists_cons_of_ne_nil some
  have noComment' : ¬ ['/', '*'] <+: c :: front ++ rest' := fun found =>
    noComment (h.begins (by simp) (by simp [blanks]) found)
  refine longestGap_iff.mpr ⟨isGap.before (List.cons_ne_nil _ _) _, ?_⟩
  rw [List.cons_append] at none noComment noComment' ⊢
  rw [trivia_eq_zero_iff noComment] at none
  rw [trivia_eq_zero_iff noComment']
  refine ⟨none.1, fun found => none.2 ?_⟩
  exact (h.begins (by simp) (by simp [blanks]) found : ['/', '/'] <+: (c :: front) ++ rest)

end admits

/-- Blanks and closed comments, a blank being first. -/
structure Separator (gap : List Char) : Prop where
  blank : ∃ c ∈ blanks, gap.head? = some c
  closed : ∀ rest, Gap gap rest

theorem Separator.admits {gap : List Char} (h : Separator gap) (between back : List Char) :
    Admits (between ++ back) (between ++ (gap ++ back)) := by
  refine Admits.prepend ?_ between
  obtain ⟨c, blank, head⟩ := h.blank
  obtain ⟨more, rfl⟩ := List.head?_eq_some_iff.mp head
  exact ⟨c, rfl, .inr blank⟩

end Lexical

open Lexical

/-! ## Moved items -/

/-- The second item is the first one, its position being moved by `gap`. -/
inductive Item.Moves (gap : List Char) : Item → Item → Prop where
  | token (t : Token) : Moves gap (.token t) (.token t)
  | fault (p : Position) (cause : LexicalCause) :
    Moves gap (.fault (.lexical p cause)) (.fault (.lexical (p.past gap) cause))
  | finish : Moves gap .finish .finish

namespace Scanner

variable {s s' m : Scanner} {i : Item} {gap back : List Char}

theorem exists_consumed (h : s.next = (i, s')) :
    ∃ consumed, s.rest = consumed ++ s'.rest ∧ s'.position = s.position.past consumed := by
  obtain ⟨j, s'', step⟩ := exists_step s
  obtain ⟨rfl, rfl⟩ := Prod.mk.inj ((next_of_step step).symm.trans h)
  cases step with
  | finish longest => exact ⟨s.rest, (List.append_nil _).symm, rfl⟩
  | @token gap lexeme rest t split longest lexes =>
    exact ⟨gap ++ lexeme, by rw [split, List.append_assoc], (Position.past_append ..).symm⟩
  | @fault gap lexeme rest cause split longest lexes =>
    exact ⟨gap ++ lexeme, by rw [split, List.append_assoc], (Position.past_append ..).symm⟩

/-- At another position a scanner comes upon the same items, the positions being moved. -/
theorem next_moves (h : s.next = (i, m)) (rest : s'.rest = s.rest)
    (position : s'.position = s.position.past gap) :
    ∃ j m', s'.next = (j, m') ∧ i.Moves gap j ∧ m'.rest = m.rest ∧
      m'.position = m.position.past gap := by
  obtain ⟨i', m₀, step⟩ := exists_step s
  obtain ⟨rfl, rfl⟩ := Prod.mk.inj ((next_of_step step).symm.trans h)
  cases step with
  | finish longest =>
    rw [← rest] at longest
    refine ⟨_, _, next_of_step (.finish longest), .finish, rfl, ?_⟩
    rw [position, rest]
    exact Position.past_comm ..
  | @token before lexeme behind t split longest lexes =>
    refine ⟨_, _, next_of_step (.token (rest.trans split) longest lexes), .token t, rfl, ?_⟩
    rw [position, Position.past_comm _ gap before]
    exact Position.past_comm ..
  | @fault before lexeme behind cause split longest lexes =>
    have next := next_of_step (.fault (rest.trans split) longest lexes)
    rw [position, Position.past_comm _ gap before] at next
    exact ⟨_, _, next, .fault _ cause, rfl, Position.past_comm ..⟩

theorem next_of_gap (isGap : Gap gap back) (split : s.rest = gap ++ back) :
    s.next = (⟨s.source, back, s.position.past gap⟩ : Scanner).next := by
  have skipped : s.advance (trivia s.rest) =
      (⟨s.source, back, s.position.past gap⟩ : Scanner).advance (trivia back) := by
    have taken : (gap ++ back).take (gap.length + trivia back) = gap ++ back.take (trivia back) :=
      List.take_length_add_append _
    have left : (gap ++ back).drop (gap.length + trivia back) = back.drop (trivia back) :=
      List.drop_length_add_append _
    rw [split, isGap.trivia_append, Nat.add_comm]
    simp only [advance, split, taken, left, Position.past_append]
  unfold next
  rw [skipped]

/-! ## Scanning up to a place -/

/-- From `s` on there are only tokens up to `s'`. -/
abbrev Passes : Scanner → Scanner → Prop :=
  Relation.ReflTransGen fun s s' => ∃ t, s.next = (.token t, s')

theorem Passes.exists_consumed (h : s.Passes s') :
    ∃ consumed, s.rest = consumed ++ s'.rest ∧ s'.position = s.position.past consumed := by
  induction h with
  | refl => exact ⟨[], rfl, rfl⟩
  | tail _ last ih =>
    obtain ⟨consumed, split, position⟩ := ih
    obtain ⟨t, next⟩ := last
    obtain ⟨more, split', position'⟩ := Scanner.exists_consumed next
    refine ⟨consumed ++ more, ?_, ?_⟩
    · rw [split, split', List.append_assoc]
    · rw [position', position, Position.past_append]

theorem passes_of_mem {s : Scanner} {p : Token × Scanner} (h : p ∈ s.tokens.list) :
    s.Passes p.2 := by
  rcases hs : s.next with ⟨i, s'⟩
  cases i with
  | finish =>
    rw [tokens_of_finish hs] at h
    cases h
  | fault f =>
    rw [tokens_of_fault hs] at h
    cases h
  | token t =>
    rw [tokens_of_token hs] at h
    rcases List.mem_cons.mp h with rfl | h
    · exact .single ⟨t, hs⟩
    · have shorter := next_rest_lt hs (by simp)
      exact .head ⟨t, hs⟩ (passes_of_mem h)
termination_by s.rest.length

/-! ## Scanning with a separator and without -/

/-- Where the scanner `s` stands in `front ++ back` and the scanner `s'` in `front ++ gap ++ back`:
before the separator at the same place, or behind it. -/
inductive Apart (gap back : List Char) : Scanner → Scanner → Prop where
  | before {s s' e : Scanner} {between : List Char} (passes : s.Passes e) (reached : e.rest = back)
    (rest : s.rest = between ++ back) (rest' : s'.rest = between ++ (gap ++ back))
    (position : s'.position = s.position) : Apart gap back s s'
  | behind {s s' : Scanner} (rest : s'.rest = s.rest)
    (position : s'.position = s.position.past gap) : Apart gap back s s'

/-- The line of a place moved by `gap`, or not moved. -/
def LineMoves (gap : List Char) (s s' : Scanner) : Prop :=
  s'.position.line = s.position.line ∨ s'.position.line = s.position.line + gap.count '\n'

theorem lineMoves_of_past (h : s'.position = s.position.past gap) : LineMoves gap s s' :=
  .inr (by rw [h]; rfl)

/-- From item to item the two scanners stay apart by the separator. -/
theorem Apart.next (sep : Separator gap) (apart : Apart gap back s s') (h : s.next = (i, m)) :
    ∃ j m', s'.next = (j, m') ∧ i.Moves gap j ∧ LineMoves gap m m' ∧ Apart gap back m m' := by
  cases apart with
  | behind rest position =>
    obtain ⟨j, m', next, moves, rest, position⟩ := next_moves h rest position
    exact ⟨j, m', next, moves, lineMoves_of_past position, .behind rest position⟩
  | @before e between passes reached rest rest' position =>
    rcases Relation.ReflTransGen.cases_head passes with rfl | ⟨m₀, ⟨t, ht⟩, passes⟩
    · -- the separator comes next
      obtain rfl : between = [] := by simpa [reached] using rest
      have behind := next_of_gap (sep.closed back) rest'
      have behindGap : (⟨s'.source, back, s'.position.past gap⟩ : Scanner).position =
          s.position.past gap := by rw [position]
      obtain ⟨j, m', next, moves, rest, position⟩ := next_moves h reached.symm behindGap
      exact ⟨j, m', behind.trans next, moves, lineMoves_of_past position, .behind rest position⟩
    · -- a token comes next, and the separator somewhere behind it
      obtain ⟨j, m₁, step⟩ := exists_step s
      have next_eq := next_of_step step
      rw [ht] at h next_eq
      obtain ⟨rfl, rfl⟩ := Prod.mk.inj h
      cases step with
      | finish _ => cases next_eq
      | fault _ _ _ => cases next_eq
      | @token first lexeme behind u split longest lexes =>
        obtain ⟨same, rfl⟩ := Prod.mk.inj next_eq
        cases same
        obtain ⟨consumed, tail, -⟩ := Passes.exists_consumed passes
        change behind = consumed ++ e.rest at tail
        rw [reached] at tail
        subst tail
        have front : between = first ++ (lexeme ++ consumed) := by
          have cancel : between ++ back = (first ++ (lexeme ++ consumed)) ++ back := by
            rw [← rest, split]
            simp
          exact List.append_cancel_right cancel
        have split' : s'.rest = first ++ (lexeme ++ (consumed ++ (gap ++ back))) := by
          rw [rest', front]
          simp
        have admits := sep.admits consumed back
        have step' : Lexical.Step s' _ _ :=
          .token split' (longest.admits lexes admits) (lexes.admits admits)
        exact ⟨_, _, next_of_step step', .token t, .inl (by rw [position]),
          .before passes reached rfl rfl (by rw [position])⟩

/-! ## Whole texts -/

theorem Apart.items {s s' : Scanner} (sep : Separator gap) (apart : Apart gap back s s') :
    List.Forall₂ (Item.Moves gap) (s.items.map (·.1)) (s'.items.map (·.1)) := by
  rcases hs : s.next with ⟨i, m⟩
  obtain ⟨j, m', hs', moves, -, apart'⟩ := apart.next sep hs
  cases moves with
  | finish =>
    rw [items_of_finish hs, items_of_finish hs']
    exact .cons .finish .nil
  | token t =>
    have shorter := next_rest_lt hs (by simp)
    rw [items_of_token hs, items_of_token hs']
    exact .cons (.token t) (apart'.items sep)
  | fault p cause =>
    have shorter := next_rest_lt hs (by simp)
    rw [items_of_fault hs, items_of_fault hs']
    exact .cons (.fault p cause) (apart'.items sep)
termination_by s.rest.length

end Scanner

/-- The second fault is the first one, its place being moved by `gap` or, where a parser was refused
before the gap, the same. -/
inductive Fault.Moves (gap : List Char) : Fault → Fault → Prop where
  | lexical (p : Position) (cause : LexicalCause) :
    Moves gap (.lexical p cause) (.lexical (p.past gap) cause)
  | grammar {line line' : Nat} (cause : GrammarCause)
    (place : line' = line ∨ line' = line + gap.count '\n') :
    Moves gap (.grammar line cause) (.grammar line' cause)

/-- The same tree, or faults that differ in their places only. -/
inductive SameOutcome (gap : List Char) {α : Type} : Except Fault α → Except Fault α → Prop where
  | ok (a : α) : SameOutcome gap (.ok a) (.ok a)
  | error {f f' : Fault} (moves : f.Moves gap f') : SameOutcome gap (.error f) (.error f')

/-- The same tokens, and the same fault behind them if there is one. -/
structure Tokens.Moves (gap : List Char) (ts ts' : Tokens) : Prop where
  list : List.Forall₂ (fun p q => p.1 = q.1 ∧ Scanner.LineMoves gap p.2 q.2) ts.list ts'.list
  fault : Option.Rel (Fault.Moves gap) ts.fault ts'.fault
  last : Scanner.LineMoves gap ts.last ts'.last

theorem Scanner.Apart.tokens {s s' : Scanner} {gap back : List Char} (sep : Separator gap)
    (apart : Apart gap back s s') : s.tokens.Moves gap s'.tokens := by
  rcases hs : s.next with ⟨i, m⟩
  obtain ⟨j, m', hs', moves, line, apart'⟩ := apart.next sep hs
  cases moves with
  | finish =>
    rw [tokens_of_finish hs, tokens_of_finish hs']
    exact ⟨.nil, .none, line⟩
  | token t =>
    have shorter := next_rest_lt hs (by simp)
    obtain ⟨list, fault, last⟩ := apart'.tokens sep
    rw [tokens_of_token hs, tokens_of_token hs']
    exact ⟨.cons ⟨rfl, line⟩ list, fault, last⟩
  | fault p cause =>
    rw [tokens_of_fault hs, tokens_of_fault hs']
    exact ⟨.nil, .some (.lexical p cause), line⟩
termination_by s.rest.length

namespace Parser

theorem conclude_moves {α : Type} {gap : List Char} {ts ts' : Tokens} (moves : ts.Moves gap ts')
    (x : Except Refusal α) : SameOutcome gap (conclude ts x).1 (conclude ts' x).1 := by
  obtain ⟨tokens, stop, behind⟩ := ts
  obtain ⟨tokens', stop', behind'⟩ := ts'
  obtain ⟨list, fault, last⟩ := moves
  simp only at list fault last
  cases x with
  | ok a =>
    unfold conclude
    cases fault with
    | none => exact .ok a
    | some fault => exact .error fault
  | error refusal =>
    have dropped := List.forall₂_drop (tokens.length - refusal.rest.length) list
    unfold conclude
    rw [← list.length_eq]
    simp only
    generalize tokens.drop _ = seen at dropped
    generalize tokens'.drop _ = seen' at dropped
    cases dropped with
    | cons first _ => exact .error (.grammar refusal.cause first.2)
    | nil =>
      cases fault with
      | none => exact .error (.grammar refusal.cause last)
      | some fault => exact .error fault

theorem run_moves {α : Type} {gap : List Char} {text text' : String}
    (moves : (Scanner.ofString text).tokens.Moves gap (Scanner.ofString text').tokens)
    (read : List Token → Except Refusal α) :
    SameOutcome gap ((ofString text).run read).1 ((ofString text').run read).1 := by
  have tokens : (Scanner.ofString text).tokens.list.map (·.1) =
      (Scanner.ofString text').tokens.list.map (·.1) := by
    rw [← List.forall₂_eq_eq_eq, List.forall₂_map_left_iff, List.forall₂_map_right_iff]
    exact moves.list.imp fun p q h => h.1
  have run_eq (text : String) : ((ofString text).run read).1 =
      (conclude (Scanner.ofString text).tokens
        (read ((Scanner.ofString text).tokens.list.map (·.1)))).1 := rfl
  rw [run_eq, run_eq, ← tokens]
  exact conclude_moves moves _

end Parser

/-- Nothing stands before this place of the text, or tokens only and it is the place behind one of
them. -/
def Boundary (front back : String) : Prop :=
  front = "" ∨ ∃ p ∈ (Scanner.ofString (front ++ back)).tokens.list,
    p.2.position.offset = utf8Length front.toList

theorem Boundary.apart {front back : String} (boundary : Boundary front back) (gap : String) :
    Scanner.Apart gap.toList back.toList (.ofString (front ++ back))
      (.ofString (front ++ gap ++ back)) := by
  have rest' : (Scanner.ofString (front ++ gap ++ back)).rest =
      front.toList ++ (gap.toList ++ back.toList) := by
    simp [Scanner.ofString]
  have rest : (Scanner.ofString (front ++ back)).rest = front.toList ++ back.toList :=
    String.toList_append ..
  obtain ⟨e, passes, reached⟩ : ∃ e, (Scanner.ofString (front ++ back)).Passes e ∧
      e.rest = back.toList := by
    rcases boundary with rfl | ⟨p, mem, offset⟩
    · exact ⟨_, .refl, rest⟩
    · have passes := Scanner.passes_of_mem mem
      obtain ⟨consumed, split, position⟩ := Scanner.Passes.exists_consumed passes
      have length : utf8Length consumed = utf8Length front.toList := by
        rw [← offset, position]
        exact (Nat.zero_add _).symm
      rw [rest] at split
      exact ⟨p.2, passes, (eq_of_utf8Length_eq split length.symm).2.symm⟩
  exact .before passes reached rest rest' rfl

/-- A separator between tokens changes no token and no outcome: the places of faults behind it are
moved, and nothing else. -/
theorem separator_transparent {front gap back : String} (boundary : Boundary front back)
    (sep : Separator gap.toList) :
    List.Forall₂ (Item.Moves gap.toList) ((Scanner.ofString (front ++ back)).items.map (·.1))
      ((Scanner.ofString (front ++ gap ++ back)).items.map (·.1)) ∧
    SameOutcome gap.toList (parseProgram (front ++ back)) (parseProgram (front ++ gap ++ back)) ∧
    SameOutcome gap.toList (parseExpression (front ++ back))
      (parseExpression (front ++ gap ++ back)) := by
  have apart := boundary.apart gap
  have tokens := apart.tokens sep
  exact ⟨apart.items sep, Parser.run_moves tokens _, Parser.run_moves tokens _⟩

/-- Two comments between a literal and a slash. -/
theorem separator_before_slash :
    let front := "1f"
    let gap := " //é\n/* / */"
    let back := "/ 2; #"
    Boundary front back ∧ Separator gap.toList ∧
    List.Forall₂ (Item.Moves gap.toList) ((Scanner.ofString (front ++ back)).items.map (·.1))
      ((Scanner.ofString (front ++ gap ++ back)).items.map (·.1)) ∧
    SameOutcome gap.toList (parseProgram (front ++ back)) (parseProgram (front ++ gap ++ back)) ∧
    SameOutcome gap.toList (parseExpression (front ++ back))
      (parseExpression (front ++ gap ++ back)) := by
  intro front gap back
  have boundary : Boundary front back := .inr (by decide +kernel)
  have gap_eq : gap.toList =
      ' ' :: '/' :: '/' :: (['é'] ++ '\n' :: '/' :: '*' :: ([' ', '/', ' '] ++ ['*', '/'])) := by
    decide
  have sep : Separator gap.toList := by
    rw [gap_eq]
    refine ⟨⟨' ', by decide, rfl⟩, fun rest => .blank (by decide) (.line (by decide) ?_)⟩
    exact .block (by decide) .nil
  exact ⟨boundary, sep, separator_transparent boundary sep⟩

end TweenScript
