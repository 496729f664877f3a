import Mathlib.Data.List.MinMax
import TweenScript.Proofs.Lexing.Gaps

/-!
# Lexemes

`lexeme` reads what the grammar has at the front of a text, and the grammar has something at the
front of every text, so scanners go from item to item as the grammar says (`Scanner.next_eq_iff`).
-/

namespace TweenScript

namespace Lexical

/-! ## Classes of characters -/

theorem beginsWord_iff (c : Char) : beginsWord c = true ↔ WordStart c := by
  simp [beginsWord, WordStart, or_assoc]

theorem continuesWord_iff (c : Char) : continuesWord c = true ↔ WordPart c := by
  simp [continuesWord, WordPart, Char.isAlphanum, or_assoc]

theorem isDigit_iff_toNat (c : Char) : c.isDigit = true ↔ 48 ≤ c.toNat ∧ c.toNat ≤ 57 := by
  simp [Char.isDigit, UInt32.le_iff_toNat_le]

theorem isAlpha_iff_toNat (c : Char) : c.isAlpha = true ↔
    (65 ≤ c.toNat ∧ c.toNat ≤ 90) ∨ (97 ≤ c.toNat ∧ c.toNat ≤ 122) := by
  have upper : c.isUpper = true ↔ 65 ≤ c.toNat ∧ c.toNat ≤ 90 :=
    decide_eq_true_iff.trans (and_congr UInt32.le_iff_toNat_le UInt32.le_iff_toNat_le)
  have lower : c.isLower = true ↔ 97 ≤ c.toNat ∧ c.toNat ≤ 122 :=
    Bool.and_eq_true_iff.trans (and_congr (decide_eq_true_iff.trans UInt32.le_iff_toNat_le)
      (decide_eq_true_iff.trans UInt32.le_iff_toNat_le))
  exact Bool.or_eq_true_iff.trans (or_congr upper lower)

theorem WordStart.not_isDigit {c : Char} (h : WordStart c) : ¬ c.isDigit := by
  rw [isDigit_iff_toNat]
  rcases h with h | rfl | rfl
  · rw [isAlpha_iff_toNat] at h
    omega
  · decide
  · decide

/-- The digits of base sixteen, in both cases. -/
def bothCases : List Char :=
  digits ++ ['A', 'B', 'C', 'D', 'E', 'F']

theorem mem_iff_toNat {c : Char} {cs : List Char} : c ∈ cs ↔ c.toNat ∈ cs.map Char.toNat :=
  (List.mem_map_of_injective fun _ _ => Char.toNat_inj.mp).symm

theorem mem_bothCases_iff {c : Char} :
    c ∈ bothCases ↔ (48 ≤ c.toNat ∧ c.toNat ≤ 57) ∨ (97 ≤ c.toNat ∧ c.toNat ≤ 102) ∨
      (65 ≤ c.toNat ∧ c.toNat ≤ 70) := by
  rw [mem_iff_toNat]
  simp [bothCases, digits]
  omega

theorem toNat_toLower (c : Char) :
    c.toLower.toNat = if 65 ≤ c.toNat ∧ c.toNat ≤ 90 then c.toNat + 32 else c.toNat := by
  have upper : c.val ≥ 'A'.val ∧ c.val ≤ 'Z'.val ↔ 65 ≤ c.toNat ∧ c.toNat ≤ 90 := by
    simp [UInt32.le_iff_toNat_le]
  unfold Char.toLower
  simp only [upper]
  split
  · rename_i h
    have bound : c.val.toNat ≤ 90 := h.2
    show (c.val + 32).toNat = c.val.toNat + 32
    rw [UInt32.toNat_add]
    exact Nat.mod_eq_of_lt (by simp; omega)
  · rfl

theorem hexDigit_iff_mem (c : Char) : HexDigit c ↔ c ∈ bothCases := by
  rw [mem_bothCases_iff, HexDigit, mem_iff_toNat, toNat_toLower]
  simp [digits]
  split <;> omega

theorem isHexDigit_iff (c : Char) : isHexDigit c = true ↔ HexDigit c := by
  rw [hexDigit_iff_mem, mem_bothCases_iff]
  simp [isHexDigit, isDigit_iff_toNat, Char.le_def, UInt32.le_iff_toNat_le, or_assoc]

theorem hexDigitValue_eq {c : Char} (h : HexDigit c) :
    hexDigitValue c = digits.idxOf c.toLower := by
  have all : bothCases.map hexDigitValue = bothCases.map fun c => digits.idxOf c.toLower := by decide
  exact List.map_inj_left.mp all c ((hexDigit_iff_mem c).mp h)

theorem digitValue_eq {c : Char} (h : c.isDigit) :
    c.toNat - '0'.toNat = digits.idxOf c.toLower := by
  have hex : HexDigit c :=
    (hexDigit_iff_mem c).mpr (mem_bothCases_iff.mpr (.inl ((isDigit_iff_toNat c).mp h)))
  rw [← hexDigitValue_eq hex, hexDigitValue, if_pos h]

/-! ## Values -/

theorem foldl_eq_value (base : Nat) {digitValue : Char → Nat} {cs : List Char}
    (h : ∀ c ∈ cs, digitValue c = digits.idxOf c.toLower) :
    cs.foldl (fun n c => base * n + digitValue c) 0 = value base cs := by
  induction cs using List.reverseRecOn with
  | nil => rfl
  | append_singleton cs c ih =>
    have init := ih fun d hd => h d (List.mem_append_left _ hd)
    rw [value] at init ⊢
    rw [List.foldl_append, List.reverse_append, List.reverse_singleton, List.singleton_append,
      List.map_cons, Nat.ofDigits_cons, ← init]
    simp only [List.foldl_cons, List.foldl_nil, h c (List.mem_append_right _ (List.mem_singleton_self c))]
    exact Nat.add_comm _ _

theorem hexValue_eq {cs : List Char} (h : ∀ c ∈ cs, HexDigit c) : hexValue cs = value 16 cs :=
  foldl_eq_value 16 fun c hc => hexDigitValue_eq (h c hc)

theorem ofDigits_eq {whole fraction : List Char} (hw : ∀ c ∈ whole, c.isDigit)
    (hf : ∀ c ∈ fraction, c.isDigit) :
    Decimal.ofDigits whole fraction = ⟨value 10 (whole ++ fraction), -fraction.length⟩ := by
  have all (c : Char) (hc : c ∈ whole ++ fraction) : c.isDigit :=
    (List.mem_append.mp hc).elim (hw c) (hf c)
  rw [Decimal.ofDigits, Nat.ofDigitChars_eq_foldl,
    foldl_eq_value 10 fun c hc => digitValue_eq (all c hc)]

/-! ## Words and numbers -/

theorem wordToken_eq (word : String) : Lexeme.wordToken word = meaning word := by
  simp only [Lexeme.wordToken, meaning, keywords, List.lookup_cons, List.lookup_nil, beq_eq_decide]
  split
  · simp [*]
  · split
    · simp [*]
    · split <;> simp [*]

theorem word_eq {first : Char} {run rest : List Char} (begins : WordStart first)
    (spans : Spans WordPart run rest) :
    Lexeme.word (first :: (run ++ rest)) =
      ⟨.ok (meaning (String.ofList (first :: run))), (first :: run).length⟩ := by
  have goesOn : WordPart first := begins.elim .inl fun h => .inr (.inr h)
  have taken : (first :: (run ++ rest)).takeWhile continuesWord = first :: run := by
    rw [List.takeWhile_cons, if_pos ((continuesWord_iff first).mpr goesOn),
      spans.takeWhile_eq continuesWord_iff]
  rw [Lexeme.word, taken, wordToken_eq]

theorem hex_eq (mark : Char) {run rest : List Char} (spans : Spans HexDigit run rest) :
    Lexeme.hex mark (run ++ rest) =
      ⟨if run = [] ∨ 2 ^ 32 ≤ value 16 run then
        .error (.badHex (String.ofList ('0' :: mark :: run)))
      else .ok (.number (Float.ofNat (value 16 run))), ('0' :: mark :: run).length⟩ := by
  rw [Lexeme.hex, spans.takeWhile_eq isHexDigit_iff, hexValue_eq spans.inside]
  rfl

theorem suffixLength_eq {suffix rest : List Char} (h : Suffix suffix rest) :
    Lexeme.suffixLength (suffix ++ rest) = suffix.length := by
  cases h with
  | mark => rfl
  | none h =>
    unfold Lexeme.suffixLength
    split
    · rename_i marked
      exact absurd (congrArg List.head? marked) h
    · rfl

theorem decimal_eq_whole {run suffix rest : List Char}
    (spans : Spans (·.isDigit) run (suffix ++ rest)) (noPoint : (suffix ++ rest).head? ≠ some '.')
    (ends : Suffix suffix rest) :
    Lexeme.decimal (run ++ (suffix ++ rest)) =
      ⟨.ok (.number (Decimal.mk (value 10 run) 0).toFloat), (run ++ suffix).length⟩ := by
  have digits_iff (c : Char) : c.isDigit = true ↔ c.isDigit := Iff.rfl
  have number : Decimal.ofDigits run [] = ⟨value 10 run, 0⟩ := by
    rw [ofDigits_eq spans.inside (by simp), List.append_nil]
    rfl
  unfold Lexeme.decimal
  simp only [spans.takeWhile_eq digits_iff, spans.dropWhile_eq digits_iff]
  split
  · rename_i tail h
    exact absurd (congrArg List.head? h) noPoint
  · rw [number, suffixLength_eq ends, List.length_append]

theorem decimal_eq_fraction {run fraction suffix rest : List Char} (all : ∀ c ∈ run, c.isDigit)
    (spans : Spans (·.isDigit) fraction (suffix ++ rest)) (ends : Suffix suffix rest) :
    Lexeme.decimal (run ++ '.' :: (fraction ++ (suffix ++ rest))) =
      ⟨.ok (.number (Decimal.mk (value 10 (run ++ fraction)) (-fraction.length)).toFloat),
        (run ++ '.' :: (fraction ++ suffix)).length⟩ := by
  have digits_iff (c : Char) : c.isDigit = true ↔ c.isDigit := Iff.rfl
  have upToPoint : Spans (·.isDigit) run ('.' :: (fraction ++ (suffix ++ rest))) :=
    ⟨all, by simp⟩
  unfold Lexeme.decimal
  simp only [upToPoint.takeWhile_eq digits_iff, upToPoint.dropWhile_eq digits_iff,
    spans.takeWhile_eq digits_iff, spans.dropWhile_eq digits_iff,
    ofDigits_eq all spans.inside, suffixLength_eq ends]
  simp
  omega

/-! ## Operators and symbols -/

theorem paired_eq_one (one two : Operator) {second : Char} {rest : List Char}
    (h : rest.head? ≠ some second) : Lexeme.paired one two second rest = .operator one 1 :=
  if_neg h

theorem head?_ne_of_longest {first second : Char} {rest : List Char}
    (longest : ∀ p ∈ spellings, p.1 <+: [first] ++ rest → p.1.length ≤ [first].length)
    (mem : [first, second] ∈ spellings.map (·.1)) : rest.head? ≠ some second := by
  intro h
  obtain ⟨more, rfl⟩ := List.head?_eq_some_iff.mp h
  obtain ⟨p, hp, spelled⟩ := List.mem_map.mp mem
  have le := longest p hp (spelled ▸ ⟨more, rfl⟩)
  rw [spelled] at le
  exact absurd le (by simp)

theorem lexeme_of_wordStart {c : Char} (h : WordStart c) (cs : List Char) :
    lexeme c cs = Lexeme.word (c :: cs) := by
  unfold lexeme
  rw [if_pos ((beginsWord_iff c).mpr h)]

theorem lexeme_of_hex {mark : Char} (h : mark = 'x' ∨ mark = 'X') (cs : List Char) :
    lexeme '0' (mark :: cs) = Lexeme.hex mark cs := by
  rcases h with rfl | rfl <;> rfl

theorem lexeme_of_isDigit {c : Char} {cs : List Char} (h : c.isDigit)
    (decimal : ¬ BeginsHex (c :: cs)) : lexeme c cs = Lexeme.decimal (c :: cs) := by
  have noWord : ¬ beginsWord c = true := fun hc => ((beginsWord_iff c).mp hc).not_isDigit h
  unfold lexeme
  rw [if_neg noWord, if_pos h]
  split
  · exact absurd (.inl ⟨_, rfl⟩) decimal
  · exact absurd (.inr ⟨_, rfl⟩) decimal
  · rfl

theorem not_beginsHex_of_point {run : List Char} (all : ∀ c ∈ run, c.isDigit) (nonempty : run ≠ [])
    (rest : List Char) : ¬ BeginsHex (run ++ '.' :: rest) := by
  obtain ⟨c, run, rfl⟩ := List.exists_cons_of_ne_nil nonempty
  have next (mark : Char) (h : mark = 'x' ∨ mark = 'X') :
      ¬ ['0', mark] <+: c :: (run ++ '.' :: rest) := by
    rintro ⟨more, he⟩
    cases run with
    | nil => rcases h with rfl | rfl <;> cases he
    | cons d run =>
      cases he
      exact absurd (all mark (by simp)) (by rcases h with rfl | rfl <;> decide)
  exact not_or.mpr ⟨next 'x' (.inl rfl), next 'X' (.inr rfl)⟩

theorem lexeme_of_spelling {text rest : List Char} {t : Token} (mem : (text, t) ∈ spellings)
    (longest : ∀ p ∈ spellings, p.1 <+: text ++ rest → p.1.length ≤ text.length)
    (noComment : ¬ ['/', '*'] <+: text ++ rest) :
    ∃ c cs, text ++ rest = c :: cs ∧ lexeme c cs = ⟨.ok t, text.length⟩ := by
  simp only [spellings, List.mem_cons, Prod.mk.injEq, List.not_mem_nil, or_false] at mem
  rcases mem with ⟨rfl, rfl⟩ | ⟨rfl, rfl⟩ | ⟨rfl, rfl⟩ | ⟨rfl, rfl⟩ | ⟨rfl, rfl⟩ | ⟨rfl, rfl⟩ |
    ⟨rfl, rfl⟩ | ⟨rfl, rfl⟩ | ⟨rfl, rfl⟩ | ⟨rfl, rfl⟩ | ⟨rfl, rfl⟩ | ⟨rfl, rfl⟩ | ⟨rfl, rfl⟩ |
    ⟨rfl, rfl⟩ | ⟨rfl, rfl⟩ | ⟨rfl, rfl⟩ | ⟨rfl, rfl⟩ | ⟨rfl, rfl⟩ | ⟨rfl, rfl⟩ | ⟨rfl, rfl⟩ |
    ⟨rfl, rfl⟩ | ⟨rfl, rfl⟩ | ⟨rfl, rfl⟩ | ⟨rfl, rfl⟩ | ⟨rfl, rfl⟩
  -- the slash and the six characters that may be the first of two depend on what comes next
  case inr.inr.inr.inl =>
    have noStar : rest.head? ≠ some '*' := by
      intro h
      obtain ⟨more, rfl⟩ := List.head?_eq_some_iff.mp h
      exact noComment ⟨more, rfl⟩
    exact ⟨'/', rest, rfl, if_neg noStar⟩
  all_goals
    first
    | exact ⟨_, _, rfl, rfl⟩
    | exact ⟨_, _, rfl, paired_eq_one _ _ (head?_ne_of_longest longest (by decide))⟩

theorem lexeme_of_unknown {c : Char} (noWord : ¬ WordStart c) (noDigit : ¬ c.isDigit)
    {rest : List Char} (noSpelling : ∀ p ∈ spellings, ¬ p.1 <+: c :: rest) :
    lexeme c rest = ⟨.error (.unknownCharacter c), 1⟩ := by
  have other (d : Char) (h : [d] ∈ spellings.map (·.1)) : c ≠ d := by
    rintro rfl
    obtain ⟨p, hp, spelled⟩ := List.mem_map.mp h
    exact noSpelling p hp (spelled ▸ ⟨rest, rfl⟩)
  unfold lexeme
  rw [if_neg fun h => noWord ((beginsWord_iff c).mp h), if_neg noDigit]
  split
  all_goals first | rfl | exact absurd rfl (other _ (by decide))

/-! ## Lexemes -/

/-- What the grammar has at the front of a text is read from it. -/
theorem lexeme_of_lexes {front rest : List Char} {content : Except LexicalCause Token}
    (h : Lexes front rest content) :
    ∃ c cs, front ++ rest = c :: cs ∧ lexeme c cs = ⟨content, front.length⟩ := by
  cases h with
  | @word first run rest begins spans =>
    exact ⟨first, run ++ rest, rfl, by rw [lexeme_of_wordStart begins, word_eq begins spans]⟩
  | @hex mark run rest marked spans nonempty fits =>
    refine ⟨'0', mark :: (run ++ rest), rfl, ?_⟩
    rw [lexeme_of_hex marked, hex_eq mark spans, if_neg]
    rintro (h | h)
    · exact nonempty h
    · omega
  | @badHex mark run rest marked spans bad =>
    refine ⟨'0', mark :: (run ++ rest), rfl, ?_⟩
    rw [lexeme_of_hex marked, hex_eq mark spans, if_pos bad]
  | @whole run suffix rest decimal spans nonempty noPoint ends =>
    obtain ⟨c, run, rfl⟩ := List.exists_cons_of_ne_nil nonempty
    have digit : c.isDigit := spans.inside c List.mem_cons_self
    have text_eq : (c :: run ++ suffix) ++ rest = c :: (run ++ (suffix ++ rest)) := by simp
    refine ⟨c, run ++ (suffix ++ rest), text_eq, (lexeme_of_isDigit digit decimal).trans ?_⟩
    exact decimal_eq_whole spans noPoint ends
  | @fraction run fraction suffix rest all nonempty spans ends =>
    obtain ⟨c, run, rfl⟩ := List.exists_cons_of_ne_nil nonempty
    have digit : c.isDigit := all c List.mem_cons_self
    refine ⟨c, run ++ '.' :: (fraction ++ (suffix ++ rest)), by simp, ?_⟩
    have decimal := not_beginsHex_of_point all nonempty (fraction ++ (suffix ++ rest))
    exact (lexeme_of_isDigit digit decimal).trans (decimal_eq_fraction all spans ends)
  | spelling mem longest noComment => exact lexeme_of_spelling mem longest noComment
  | @unclosedComment body _ => exact ⟨'/', '*' :: body, by simp, rfl⟩
  | @unknownCharacter c rest noWord noDigit noSpelling =>
    exact ⟨c, rest, rfl, lexeme_of_unknown noWord noDigit noSpelling⟩

/-! ## Every text -/

theorem exists_suffix (cs : List Char) :
    ∃ suffix rest, cs = suffix ++ rest ∧ Suffix suffix rest := by
  by_cases h : cs.head? = some 'f'
  · obtain ⟨rest, rfl⟩ := List.head?_eq_some_iff.mp h
    exact ⟨['f'], rest, rfl, .mark⟩
  · exact ⟨[], cs, rfl, .none h⟩

/-- The text begins with a lexeme. -/
def BeginsLexeme (text : List Char) : Prop :=
  ∃ front rest content, text = front ++ rest ∧ Lexes front rest content

theorem beginsLexeme_of_wordStart {c : Char} (begins : WordStart c) (cs : List Char) :
    BeginsLexeme (c :: cs) := by
  obtain ⟨run, rest, rfl, spans⟩ := exists_spans continuesWord_iff cs
  exact ⟨c :: run, rest, _, rfl, .word begins spans⟩

theorem beginsLexeme_of_beginsHex {text : List Char} (h : BeginsHex text) :
    BeginsLexeme text := by
  obtain ⟨mark, cs, marked, rfl⟩ : ∃ mark cs, (mark = 'x' ∨ mark = 'X') ∧ text = '0' :: mark :: cs := by
    rcases h with ⟨cs, rfl⟩ | ⟨cs, rfl⟩
    · exact ⟨'x', cs, .inl rfl, rfl⟩
    · exact ⟨'X', cs, .inr rfl, rfl⟩
  obtain ⟨run, rest, rfl, spans⟩ := exists_spans isHexDigit_iff cs
  by_cases bad : run = [] ∨ 2 ^ 32 ≤ value 16 run
  · exact ⟨_, rest, _, rfl, .badHex marked spans bad⟩
  · rw [not_or, Nat.not_le] at bad
    exact ⟨_, rest, _, rfl, .hex marked spans bad.1 bad.2⟩

theorem beginsLexeme_of_isDigit {c : Char} {cs : List Char} (digit : c.isDigit)
    (decimal : ¬ BeginsHex (c :: cs)) : BeginsLexeme (c :: cs) := by
  obtain ⟨run, tail, split, spans⟩ := exists_spans (fun _ => Iff.rfl) (c :: cs)
  have nonempty : run ≠ [] := by
    rintro rfl
    rw [List.nil_append] at split
    exact spans.ends c (split ▸ rfl) digit
  rw [split] at decimal ⊢
  by_cases point : tail.head? = some '.'
  · obtain ⟨tail, rfl⟩ := List.head?_eq_some_iff.mp point
    obtain ⟨fraction, tail, rfl, fractionSpans⟩ := exists_spans (fun _ => Iff.rfl) tail
    obtain ⟨suffix, rest, rfl, ends⟩ := exists_suffix tail
    exact ⟨run ++ '.' :: (fraction ++ suffix), rest, _, by simp,
      .fraction spans.inside nonempty fractionSpans ends⟩
  · obtain ⟨suffix, rest, rfl, ends⟩ := exists_suffix tail
    exact ⟨run ++ suffix, rest, _, by simp, .whole decimal spans nonempty point ends⟩

theorem beginsLexeme_of_spelling {text : List Char} {p : List Char × Token} (mem : p ∈ spellings)
    (front : p.1 <+: text) (noComment : ¬ ['/', '*'] <+: text) : BeginsLexeme text := by
  have mem_iff (p : List Char × Token) :
      p ∈ spellings.filter (·.1 <+: text) ↔ p ∈ spellings ∧ p.1 <+: text := by simp
  have some : (spellings.filter (·.1 <+: text)).argmax (·.1.length) ≠ none := by
    rw [Ne, List.argmax_eq_none]
    exact List.ne_nil_of_mem ((mem_iff p).mpr ⟨mem, front⟩)
  obtain ⟨⟨best, t⟩, hbest⟩ := Option.ne_none_iff_exists'.mp some
  obtain ⟨bestMem, rest, rfl⟩ := (mem_iff _).mp (List.argmax_mem hbest)
  refine ⟨best, rest, .ok t, rfl, .spelling bestMem (fun p hp hfront => ?_) noComment⟩
  exact List.le_of_mem_argmax (f := (·.1.length)) ((mem_iff p).mpr ⟨hp, hfront⟩) hbest

theorem not_infix_of_trivia {body : List Char} (none : trivia ('/' :: '*' :: body) = 0) :
    ¬ ['*', '/'] <:+: body := by
  rw [← commentEnd_eq_none_iff]
  cases h : commentEnd body with
  | none => rfl
  | some n =>
    rw [trivia.eq_3, h] at none
    cases none

/-- Where no gap stands the text is at its end or has a lexeme. -/
theorem beginsLexeme_of_trivia {c : Char} {cs : List Char} (none : trivia (c :: cs) = 0) :
    BeginsLexeme (c :: cs) := by
  by_cases word : WordStart c
  · exact beginsLexeme_of_wordStart word cs
  by_cases hex : BeginsHex (c :: cs)
  · exact beginsLexeme_of_beginsHex hex
  by_cases digit : c.isDigit
  · exact beginsLexeme_of_isDigit digit hex
  by_cases comment : ['/', '*'] <+: c :: cs
  · obtain ⟨body, he⟩ := comment
    obtain ⟨rfl, rfl⟩ : '/' = c ∧ '*' :: body = cs := List.cons.inj he
    exact ⟨_, [], _, (List.append_nil _).symm, .unclosedComment (not_infix_of_trivia none)⟩
  by_cases spelled : ∃ p ∈ spellings, p.1 <+: c :: cs
  · obtain ⟨p, mem, front⟩ := spelled
    exact beginsLexeme_of_spelling mem front comment
  · push Not at spelled
    exact ⟨[c], cs, _, rfl, .unknownCharacter word digit spelled⟩

end Lexical

/-! ## Items -/

namespace Scanner

open Lexical

variable {s s' : Scanner} {i : Item}

theorem advance_eq {front rest : List Char} (h : s.rest = front ++ rest) :
    s.advance front.length = ⟨s.source, rest, s.position.past front⟩ := by
  rw [advance, h, List.drop_left, List.take_left]

theorem advance_trivia {gap rest : List Char} (split : s.rest = gap ++ rest)
    (longest : LongestGap gap rest) :
    s.advance (trivia s.rest) = ⟨s.source, rest, s.position.past gap⟩ := by
  obtain ⟨isGap, none⟩ := longestGap_iff.mp longest
  rw [← advance_eq split, split, isGap.trivia_append, none, Nat.zero_add]

theorem next_of_lexes {gap front rest : List Char} {content : Except LexicalCause Token}
    (split : s.rest = gap ++ (front ++ rest)) (longest : LongestGap gap (front ++ rest))
    (lexes : Lexes front rest content) :
    s.next = (match content with
      | .ok t => .token t
      | .error cause => .fault (.lexical (s.position.past gap) cause),
      ⟨s.source, rest, (s.position.past gap).past front⟩) := by
  obtain ⟨c, cs, hfront, hlexeme⟩ := lexeme_of_lexes lexes
  unfold next
  rw [advance_trivia split longest]
  simp only [hfront, hlexeme]
  rw [advance_eq hfront.symm]
  cases content <;> rfl

theorem next_of_step (h : Lexical.Step s i s') : s.next = (i, s') := by
  cases h with
  | finish gap =>
    unfold next
    simp only [advance_trivia (List.append_nil _).symm gap]
  | token split longest lexes => exact next_of_lexes split longest lexes
  | fault split longest lexes => exact next_of_lexes split longest lexes

theorem exists_step (s : Scanner) : ∃ i s', Lexical.Step s i s' := by
  obtain ⟨gap, tail, split, length, isGap⟩ := exists_gap s.rest
  have none : trivia tail = 0 := by
    have whole := isGap.trivia_append
    rw [← split] at whole
    omega
  have longest : LongestGap gap tail := longestGap_iff.mpr ⟨isGap, none⟩
  cases tail with
  | nil =>
    rw [List.append_nil] at split
    exact ⟨_, _, .finish (split ▸ longest)⟩
  | cons c cs =>
    obtain ⟨front, rest, content, htail, lexes⟩ := beginsLexeme_of_trivia none
    rw [htail] at split longest
    cases content with
    | ok t => exact ⟨_, _, .token split longest lexes⟩
    | error cause => exact ⟨_, _, .fault split longest lexes⟩

/-- What a scanner comes upon, wherever it stands, is the item that the lexical grammar has there. -/
theorem next_eq_iff (s s' : Scanner) (i : Item) : s.next = (i, s') ↔ Lexical.Step s i s' := by
  refine ⟨fun h => ?_, next_of_step⟩
  obtain ⟨j, s'', step⟩ := exists_step s
  obtain ⟨rfl, rfl⟩ := Prod.mk.inj ((next_of_step step).symm.trans h)
  exact step

-- a comment does not end with the star that begins it
example : (Scanner.ofString "/*/").next.1 = .fault (.lexical .start .unclosedComment) := by cbv

end Scanner

end TweenScript
