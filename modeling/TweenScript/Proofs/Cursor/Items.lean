import TweenScript.Proofs.Cursor.Runs
import TweenScript.Proofs.Lexing.Lexemes

/-!
# Items of a cursor

Behind the longest gap a cursor reads the lexeme that the grammar has there, and stands behind it then
(`Cursor.Stands.getToken_of_lexes`). Every slice that it takes on the way is there.
-/

namespace TweenScript

open Lexical

/-! ## Numbers -/

theorem readHex?_eq {run : List Char} (all : ∀ x ∈ run, HexDigit x) :
    Cursor.readHex? (String.ofList run) =
      if run = [] ∨ 2 ^ 32 ≤ value 16 run then none else some (value 16 run) := by
  rw [Cursor.readHex?, String.toList_ofList, hexValue_eq all]
  rfl

theorem map_toLower_ne {d x : Char} {cs : List Char} {name : String} (digit : d.isDigit)
    (first : name.toList.head? = some x) (other : ¬ x.isDigit) :
    String.map Char.toLower (String.ofList (d :: cs)) ≠ name := by
  rintro rfl
  rw [String.toList_map, String.toList_ofList, List.map_cons, List.head?_cons] at first
  obtain rfl := Option.some_inj.mp first
  rw [isDigit_iff_toNat, toNat_toLower] at other
  rw [isDigit_iff_toNat] at digit
  split at other <;> omega

theorem toFloat_numeral {whole fraction : List Char} (hw : ∀ x ∈ whole, x.isDigit)
    (hf : ∀ x ∈ fraction, x.isDigit) :
    (Numeral.mk false whole fraction none).toFloat =
      (Decimal.mk (value 10 (whole ++ fraction)) (-fraction.length)).toFloat := by
  rw [Numeral.toFloat, Numeral.decimal, ofDigits_eq hw hf]
  simp [Decimal.toSigned]

/-- Digits, perhaps with a point behind them and more digits, spell a number. -/
theorem readFloat?_of_digits {run tail fraction : List Char} (nonempty : run ≠ [])
    (all : ∀ x ∈ run, x.isDigit) (digits : ∀ x ∈ fraction, x.isDigit)
    (point : tail = '.' :: fraction ∨ (tail = [] ∧ fraction = [])) :
    readFloat? (String.ofList (run ++ tail)) =
      some (Decimal.mk (value 10 (run ++ fraction)) (-fraction.length)).toFloat := by
  obtain ⟨d, run, rfl⟩ := List.exists_cons_of_ne_nil nonempty
  have digit : d.isDigit := all d List.mem_cons_self
  have upToPoint : Spans (·.isDigit) (d :: run) tail :=
    ⟨all, by rcases point with rfl | ⟨rfl, rfl⟩ <;> simp⟩
  have toEnd : Spans (·.isDigit) fraction [] := ⟨digits, by simp⟩
  have fraction_eq := toEnd.takeWhile_eq (fun x => Iff.rfl (a := x.isDigit = true))
  have rest_eq := toEnd.dropWhile_eq (fun x => Iff.rfl (a := x.isDigit = true))
  rw [List.append_nil] at fraction_eq rest_eq
  rw [readFloat?, String.toList_ofList, List.cons_append]
  split
  · rename_i h
    cases h
    cases digit
  · rename_i h
    cases h
    cases digit
  · rw [readMagnitude?]
    split
    · exact absurd ‹_› (map_toLower_ne digit (x := 'i') rfl (by decide))
    · exact absurd ‹_› (map_toLower_ne digit (x := 'i') rfl (by decide))
    · exact absurd ‹_› (map_toLower_ne digit (x := 'n') rfl (by decide))
    · have whole := upToPoint.takeWhile_eq (fun x => Iff.rfl (a := x.isDigit = true))
      have behind := upToPoint.dropWhile_eq (fun x => Iff.rfl (a := x.isDigit = true))
      rw [List.cons_append] at whole behind
      rw [whole, behind]
      rcases point with rfl | ⟨rfl, rfl⟩
      · simp only [fraction_eq, rest_eq]
        rw [if_neg fun none => nonempty none.1, toFloat_numeral all digits]
      · rw [← toFloat_numeral all digits]
        exact if_neg fun none => nonempty none.1

/-! ## Classes of ASCII characters -/

theorem isAscii_of_isDigit {x : Char} (h : x.isDigit) : IsAscii x := by
  rw [isDigit_iff_toNat] at h
  show x.toNat < 128
  omega

theorem isAscii_of_isAlpha {x : Char} (h : x.isAlpha) : IsAscii x := by
  rw [isAlpha_iff_toNat] at h
  show x.toNat < 128
  omega

theorem isAscii_of_wordPart {x : Char} (h : WordPart x) : IsAscii x := by
  rcases h with h | h | rfl | rfl
  · exact isAscii_of_isAlpha h
  · exact isAscii_of_isDigit h
  · decide
  · decide

theorem wordPart_of_wordStart {x : Char} (h : WordStart x) : WordPart x :=
  h.elim .inl fun h => .inr (.inr h)

theorem isAscii_of_hexDigit {x : Char} (h : HexDigit x) : IsAscii x := by
  rw [hexDigit_iff_mem, mem_bothCases_iff] at h
  show x.toNat < 128
  omega

theorem Lexical.Spans.cons {p : Char → Prop} {x : Char} {run rest : List Char} (hx : p x)
    (h : Spans p run rest) : Spans p (x :: run) rest :=
  ⟨List.forall_mem_cons.mpr ⟨hx, h.inside⟩, h.ends⟩

namespace Cursor

/-! ## Lexemes -/

/-- The item that a lexeme at `place` is. -/
def itemAt (place : Position) : Except LexicalCause Token → Item
  | .ok t => .token t
  | .error cause => .fault (.lexical place cause)

/-- The outcome of reading `text` is the item `i`, with the cursor between `front` and `rest`. -/
def Reads (text : String) (front rest : List Char) (i : Item) (outcome : Option (Item × Cursor)) : Prop :=
  ∃ c, outcome = some (i, c) ∧ Stands text front rest c

namespace Stands

variable {text : String} {front run fraction suffix rest : List Char} {x : Char} {c : Cursor}

theorem position_eq (h : Stands text front rest c) : c.position = Position.start.past front := by
  rw [Cursor.position, h.line, h.pos, Position.past, Position.start, Nat.zero_add]

theorem scanWord (h : Stands text front (x :: run ++ rest) c) (begins : WordStart x)
    (spans : Spans WordPart run rest) :
    Reads text (front ++ x :: run) rest (.token (meaning (String.ofList (x :: run)))) c.scanWord := by
  have passed := h.skipWhile continuesWord_iff (fun _ => isAscii_of_wordPart)
    (spans.cons (wordPart_of_wordStart begins))
  refine ⟨_, ?_, passed⟩
  simp only [Cursor.scanWord, h.pos, passed.since, Option.bind_eq_bind, Option.bind_some,
    wordToken_eq]
  rfl

theorem scanHex {mark : Char} (h : Stands text front ('0' :: mark :: (run ++ rest)) c)
    (marked : mark = 'x' ∨ mark = 'X') (spans : Spans HexDigit run rest) :
    Reads text (front ++ '0' :: mark :: run) rest
      (itemAt c.position
        (if run = [] ∨ 2 ^ 32 ≤ value 16 run then
          .error (.badHex (String.ofList ('0' :: mark :: run)))
        else .ok (.number (Float.ofNat (value 16 run))))) c.scanHex := by
  have ascii : IsAscii mark := by rcases marked with rfl | rfl <;> decide
  have sameLine : '\n' ∉ ['0', mark] := by rcases marked with rfl | rfl <;> decide
  have jumped := h.jump (by decide) ascii sameLine
  have passed := jumped.skipWhile isHexDigit_iff (fun _ => isAscii_of_hexDigit) spans
  have whole : front ++ ['0', mark] ++ run = front ++ '0' :: mark :: run := by simp
  have digits := passed.since
  rw [whole] at passed
  have all := passed.since
  refine ⟨_, ?_, passed⟩
  simp only [Cursor.scanHex, jumped.pos, digits, readHex?_eq spans.inside, Option.bind_eq_bind,
    Option.bind_some]
  by_cases bad : run = [] ∨ 2 ^ 32 ≤ value 16 run
  · simp only [if_pos bad, Cursor.position, h.pos, all, Option.bind_some]
    rfl
  · simp only [if_neg bad]
    rfl

theorem bumpIf_suffix (h : Stands text front (suffix ++ rest) c) (ends : Suffix suffix rest) :
    Stands text (front ++ suffix) rest (c.bumpIf 'f').2 := by
  cases ends with
  | mark =>
    rw [h.bumpIf_of_head (by decide)]
    exact h.bump (by decide)
  | none noMark =>
    rw [h.bumpIf_of_other (by decide) noMark, List.append_nil]
    exact h

theorem scanDecimal_whole (h : Stands text front (run ++ (suffix ++ rest)) c)
    (spans : Spans (·.isDigit) run (suffix ++ rest)) (nonempty : run ≠ [])
    (noPoint : (suffix ++ rest).head? ≠ some '.') (ends : Suffix suffix rest) :
    Reads text (front ++ (run ++ suffix)) rest
      (.token (.number (Decimal.mk (value 10 run) 0).toFloat)) c.scanDecimal := by
  have passed := h.skipWhile (fun _ => Iff.rfl) (fun _ => isAscii_of_isDigit) spans
  have number : readFloat? (String.ofList (run ++ [])) = some (Decimal.mk (value 10 (run ++ [])) 0).toFloat :=
    readFloat?_of_digits nonempty spans.inside (by simp) (.inr ⟨rfl, rfl⟩)
  rw [List.append_nil] at number
  refine ⟨_, ?_, List.append_assoc front run suffix ▸ passed.bumpIf_suffix ends⟩
  simp only [Cursor.scanDecimal, passed.bumpIf_of_other (by decide) noPoint, Cursor.position, h.pos]
  simp only [Bool.false_eq_true, if_false, passed.since, Option.bind_eq_bind, Option.bind_some, number]
  rfl

theorem scanDecimal_fraction (h : Stands text front (run ++ '.' :: (fraction ++ (suffix ++ rest))) c)
    (all : ∀ x ∈ run, x.isDigit) (nonempty : run ≠ [])
    (spans : Spans (·.isDigit) fraction (suffix ++ rest)) (ends : Suffix suffix rest) :
    Reads text (front ++ (run ++ '.' :: (fraction ++ suffix))) rest
      (.token (.number (Decimal.mk (value 10 (run ++ fraction)) (-fraction.length)).toFloat))
      c.scanDecimal := by
  have upToPoint : Spans (·.isDigit) run ('.' :: (fraction ++ (suffix ++ rest))) := ⟨all, by simp⟩
  have whole := h.skipWhile (fun _ => Iff.rfl) (fun _ => isAscii_of_isDigit) upToPoint
  have point := whole.bump (by decide)
  have passed := point.skipWhile (fun _ => Iff.rfl) (fun _ => isAscii_of_isDigit) spans
  have text_eq : front ++ run ++ ['.'] ++ fraction = front ++ (run ++ '.' :: fraction) := by simp
  rw [text_eq] at passed
  have behind := passed.bumpIf_suffix ends
  have front_eq : front ++ (run ++ '.' :: fraction) ++ suffix =
      front ++ (run ++ '.' :: (fraction ++ suffix)) := by simp
  rw [front_eq] at behind
  have number := readFloat?_of_digits nonempty all spans.inside (.inl rfl)
  refine ⟨_, ?_, behind⟩
  simp only [Cursor.scanDecimal, whole.bumpIf_of_head (by decide), Cursor.position, h.pos, if_true,
    passed.since, Option.bind_eq_bind, Option.bind_some, number]
  rfl

theorem scanNumber_of_decimal (h : Stands text front (x :: rest) c) (digit : x.isDigit)
    (decimal : ¬ BeginsHex (x :: rest)) : c.scanNumber = c.scanDecimal := by
  refine if_neg fun ⟨zero, marked⟩ => decimal ?_
  have ascii := isAscii_of_isDigit digit
  rw [h.peek_eq_iff (by decide)] at zero
  cases zero
  rw [h.peekAt_one_iff ascii (by decide), h.peekAt_one_iff ascii (by decide)] at marked
  refine marked.imp (fun marked => ?_) fun marked => ?_
  · exact List.cons_prefix_cons.mpr ⟨rfl, List.singleton_prefix_iff_head?_eq_some.mpr marked⟩
  · exact List.cons_prefix_cons.mpr ⟨rfl, List.singleton_prefix_iff_head?_eq_some.mpr marked⟩

theorem scanNumber_of_hex {mark : Char} (h : Stands text front ('0' :: mark :: rest) c)
    (marked : mark = 'x' ∨ mark = 'X') : c.scanNumber = c.scanHex := by
  refine if_pos ⟨h.peek_of_cons (by decide), ?_⟩
  rw [h.peekAt_one_iff (by decide) (by decide), h.peekAt_one_iff (by decide) (by decide)]
  exact marked.imp (congrArg some) (congrArg some)

theorem scanPaired_two {one two : Operator} (h : Stands text front (x :: rest) c) (ascii : IsAscii x) :
    Reads text (front ++ [x]) rest (.token (.operator two)) (c.scanPaired one two x) := by
  refine ⟨_, ?_, h.bump ascii⟩
  rw [scanPaired, h.bumpIf_of_head ascii]
  rfl

theorem scanPaired_one {one two : Operator} (h : Stands text front rest c) (ascii : IsAscii x)
    (other : rest.head? ≠ some x) :
    Reads text front rest (.token (.operator one)) (c.scanPaired one two x) := by
  refine ⟨_, ?_, h⟩
  rw [scanPaired, h.bumpIf_of_other ascii other]
  rfl

theorem scan_of_spelling {lexeme : List Char} {t : Token} (h : Stands text front (lexeme ++ rest) c)
    (mem : (lexeme, t) ∈ spellings)
    (longest : ∀ p ∈ spellings, p.1 <+: lexeme ++ rest → p.1.length ≤ lexeme.length) :
    ∃ b, c.peek = some b ∧ Reads text (front ++ lexeme) rest (.token t) (c.scan b) := by
  simp only [spellings, List.mem_cons, Prod.mk.injEq, List.not_mem_nil, or_false] at mem
  rcases mem with ⟨rfl, rfl⟩ | ⟨rfl, rfl⟩ | ⟨rfl, rfl⟩ | ⟨rfl, rfl⟩ | ⟨rfl, rfl⟩ | ⟨rfl, rfl⟩ |
    ⟨rfl, rfl⟩ | ⟨rfl, rfl⟩ | ⟨rfl, rfl⟩ | ⟨rfl, rfl⟩ | ⟨rfl, rfl⟩ | ⟨rfl, rfl⟩ | ⟨rfl, rfl⟩ |
    ⟨rfl, rfl⟩ | ⟨rfl, rfl⟩ | ⟨rfl, rfl⟩ | ⟨rfl, rfl⟩ | ⟨rfl, rfl⟩ | ⟨rfl, rfl⟩ | ⟨rfl, rfl⟩ |
    ⟨rfl, rfl⟩ | ⟨rfl, rfl⟩ | ⟨rfl, rfl⟩ | ⟨rfl, rfl⟩ | ⟨rfl, rfl⟩
  -- six characters may be the first of two
  all_goals
    refine ⟨_, h.peek_of_cons (by decide), ?_⟩
    have passed := h.bump (by decide)
  all_goals
    first
    | exact ⟨_, rfl, passed⟩
    | exact passed.scanPaired_one (by decide) (head?_ne_of_longest longest (by decide))
    | exact List.append_assoc front [_] [_] ▸ passed.scanPaired_two (by decide)

theorem scan_of_wordStart (h : Stands text front (x :: rest) c) (begins : WordStart x) :
    c.peek = some x.toUInt8 ∧ c.scan x.toUInt8 = c.scanWord := by
  have ascii := isAscii_of_wordPart (wordPart_of_wordStart begins)
  refine ⟨h.peek_of_cons ascii, ?_⟩
  rw [scan, ofUInt8_toUInt8 ascii, if_pos ((beginsWord_iff x).mpr begins)]

theorem scan_of_isDigit (h : Stands text front (x :: rest) c) (digit : x.isDigit) :
    c.peek = some x.toUInt8 ∧ c.scan x.toUInt8 = c.scanNumber := by
  have ascii := isAscii_of_isDigit digit
  refine ⟨h.peek_of_cons ascii, ?_⟩
  rw [scan, ofUInt8_toUInt8 ascii, if_neg fun begins => ?_, if_pos digit]
  exact ((beginsWord_iff x).mp begins).not_isDigit digit

theorem scan_of_hex {mark : Char} (h : Stands text front ('0' :: mark :: rest) c)
    (marked : mark = 'x' ∨ mark = 'X') : ∃ b, c.peek = some b ∧ c.scan b = c.scanHex := by
  obtain ⟨peeked, scanned⟩ := h.scan_of_isDigit (by decide)
  exact ⟨_, peeked, scanned.trans (h.scanNumber_of_hex marked)⟩

theorem scan_of_decimal (h : Stands text front (run ++ rest) c) (nonempty : run ≠ [])
    (all : ∀ x ∈ run, x.isDigit) (decimal : ¬ BeginsHex (run ++ rest)) :
    ∃ b, c.peek = some b ∧ c.scan b = c.scanDecimal := by
  obtain ⟨x, run, rfl⟩ := List.exists_cons_of_ne_nil nonempty
  have digit : x.isDigit := all x List.mem_cons_self
  obtain ⟨peeked, scanned⟩ := h.scan_of_isDigit digit
  exact ⟨_, peeked, scanned.trans (h.scanNumber_of_decimal digit decimal)⟩

theorem exists_first_byte (h : Stands text front (x :: rest) c) :
    ∃ b, c.peek = some b ∧ (Char.ofUInt8 b = x ∨ ¬ IsAscii (.ofUInt8 b)) := by
  obtain ⟨b, bytes, encoded⟩ := List.exists_cons_of_ne_nil (String.utf8EncodeChar_ne_nil (c := x))
  have peeked : c.peek = some b := by
    rw [h.among.peek, utf8_cons, encoded]
    rfl
  refine ⟨b, peeked, or_iff_not_imp_right.mpr fun ascii => ?_⟩
  exact (Option.some_inj.mp (h.head?_of_peek peeked (not_not.mp ascii))).symm

theorem scan_of_unknown (h : Stands text front (x :: rest) c) (noBlank : x ∉ [' ', '\t', '\r', '\n'])
    (noWord : ¬ WordStart x) (noDigit : ¬ x.isDigit)
    (noSpelling : ∀ p ∈ spellings, ¬ p.1 <+: x :: rest) :
    ∃ b, c.peek = some b ∧
      Reads text (front ++ [x]) rest (itemAt c.position (.error (.unknownCharacter x))) (c.scan b) := by
  obtain ⟨b, peeked, first⟩ := h.exists_first_byte
  -- a class of ASCII characters has the first byte only if it has the character
  have notIn (p : Char → Prop) (ascii : ∀ y, p y → IsAscii y) (other : ¬ p x) : ¬ p (.ofUInt8 b) := by
    rcases first with same | large
    · rwa [same]
    · exact fun inside => large (ascii _ inside)
  have other (y : Char) (hy : [y] ∈ spellings.map (·.1)) (ascii : IsAscii y) : Char.ofUInt8 b ≠ y := by
    refine notIn (· = y) (fun z same => same ▸ ascii) ?_
    rintro rfl
    obtain ⟨p, hp, spelled⟩ := List.mem_map.mp hy
    exact noSpelling p hp (spelled ▸ ⟨rest, rfl⟩)
  have newline : b ≠ '\n'.toUInt8 := by
    rintro rfl
    rw [h.peek_eq_iff (by decide)] at peeked
    cases peeked
    exact noBlank (by decide)
  have scanned : c.scan b = c.bump.2.skipUnknown c.pos := by
    rw [scan, if_neg, if_neg]
    · split
      all_goals first | rfl | exact absurd ‹_› (other _ (by decide) (by decide))
    · exact notIn (·.isDigit) (fun _ => isAscii_of_isDigit) noDigit
    · rw [beginsWord_iff]
      exact notIn WordStart (fun _ begins => isAscii_of_wordPart (wordPart_of_wordStart begins)) noWord
  have bumped : c.bump.2 = { c with pos := c.pos + 1 } := by
    simp only [Cursor.bump, peeked, if_neg newline]
  have toEnd : text.toList = front ++ (x :: rest ++ []) := by rw [List.append_nil, h.split]
  have tail := slice?_eq_some toEnd
  rw [← h.split, utf8Length_toList] at tail
  refine ⟨b, peeked, { c with pos := c.pos + x.utf8Size }, ?_, ?_⟩
  · simp only [scanned, bumped, skipUnknown, h.text_eq, h.pos, tail, Option.bind_eq_bind,
      Option.bind_some, String.toList_ofList, List.headD_cons, itemAt, Cursor.position]
    rfl
  · refine ⟨h.text_eq, h.split.trans (List.append_cons ..), ?_, ?_⟩
    · rw [utf8Length_append]
      exact congrArg (· + _) h.pos
    · have sameLine : '\n' ∉ [x] := by
        intro mem
        rw [List.mem_singleton] at mem
        exact noBlank (mem ▸ by decide)
      rw [List.count_append, List.count_eq_zero_of_not_mem sameLine]
      exact h.line

/-- What the grammar has where no gap stands and no comment begins. -/
theorem scan_of_lexes {lexeme : List Char} {content : Except LexicalCause Token}
    (h : Stands text front (lexeme ++ rest) c) (noGap : trivia (lexeme ++ rest) = 0)
    (noComment : ¬ ['/', '*'] <+: lexeme ++ rest) (lexes : Lexes lexeme rest content) :
    ∃ b, c.peek = some b ∧ Reads text (front ++ lexeme) rest (itemAt c.position content) (c.scan b) := by
  cases lexes with
  | word begins spans =>
    obtain ⟨peeked, scanned⟩ := h.scan_of_wordStart begins
    exact ⟨_, peeked, scanned ▸ h.scanWord begins spans⟩
  | @hex mark run rest marked spans nonempty fits =>
    obtain ⟨b, peeked, scanned⟩ := h.scan_of_hex marked
    have number := h.scanHex marked spans
    rw [if_neg (not_or.mpr ⟨nonempty, Nat.not_le.mpr fits⟩), ← scanned] at number
    exact ⟨b, peeked, number⟩
  | @badHex mark run rest marked spans bad =>
    obtain ⟨b, peeked, scanned⟩ := h.scan_of_hex marked
    have number := h.scanHex marked spans
    rw [if_pos bad, ← scanned] at number
    exact ⟨b, peeked, number⟩
  | @whole run suffix rest decimal spans nonempty noPoint ends =>
    rw [List.append_assoc] at h
    obtain ⟨b, peeked, scanned⟩ := h.scan_of_decimal nonempty spans.inside decimal
    have number := h.scanDecimal_whole spans nonempty noPoint ends
    rw [← scanned] at number
    exact ⟨b, peeked, number⟩
  | @fraction run fraction suffix rest all nonempty spans ends =>
    have split : run ++ '.' :: (fraction ++ suffix) ++ rest =
        run ++ '.' :: (fraction ++ (suffix ++ rest)) := by simp
    rw [split] at h
    have decimal := not_beginsHex_of_point all nonempty (fraction ++ (suffix ++ rest))
    obtain ⟨b, peeked, scanned⟩ := h.scan_of_decimal nonempty all decimal
    have number := h.scanDecimal_fraction all nonempty spans ends
    rw [← scanned] at number
    exact ⟨b, peeked, number⟩
  | spelling mem longest _ => exact h.scan_of_spelling mem longest
  | unclosedComment _ => exact absurd ⟨_, rfl⟩ noComment
  | unknownCharacter noWord noDigit noSpelling =>
    refine h.scan_of_unknown (fun blank => ?_) noWord noDigit noSpelling
    rw [List.singleton_append, trivia_blank blank] at noGap
    cases noGap

end Stands

/-! ## Gaps -/

theorem getToken_congr {c c' : Cursor} (h : c.skipWhile isGap = c'.skipWhile isGap) :
    c.getToken = c'.getToken := by
  rw [getToken.eq_def c, getToken.eq_def c', h]

namespace Stands

variable {text : String} {front gap rest : List Char} {x : Char} {c : Cursor}

theorem isAscii_of_blank {x : Char} (h : x ∈ [' ', '\t', '\r', '\n']) : IsAscii x := by
  simp only [List.mem_cons, List.not_mem_nil, or_false] at h
  rcases h with rfl | rfl | rfl | rfl <;> decide

theorem getToken_of_blank (h : Stands text front (x :: rest) c)
    (blank : x ∈ [' ', '\t', '\r', '\n']) : c.getToken = c.bump.2.getToken := by
  have ascii := isAscii_of_blank blank
  refine getToken_congr (skipWhile_of_peek (h.peek_of_cons ascii) ?_)
  rwa [ofUInt8_toUInt8 ascii, isGap_iff]

theorem begins_iff {b : UInt8} {y : Char} (h : Stands text front rest c) (peeked : c.peek = some b)
    (ascii : IsAscii y) :
    (b = '/'.toUInt8 ∧ c.peekAt 1 = some y.toUInt8) ↔ ['/', y] <+: rest := by
  rw [← Option.some_inj, ← peeked, h.peek_eq_iff (by decide)]
  constructor
  · rintro ⟨slash, next⟩
    obtain ⟨rest, rfl⟩ := List.head?_eq_some_iff.mp slash
    rw [h.peekAt_one_iff (by decide) ascii] at next
    exact List.cons_prefix_cons.mpr ⟨rfl, List.singleton_prefix_iff_head?_eq_some.mpr next⟩
  · rintro ⟨rest, rfl⟩
    exact ⟨rfl, (h.peekAt_one_iff (by decide) ascii).mpr rfl⟩

theorem getToken_of_peek {b : UInt8} (h : Stands text front rest c) (peeked : c.peek = some b)
    (noBlank : ∀ x, rest.head? = some x → x ∉ [' ', '\t', '\r', '\n']) :
    c.getToken =
      if b = '/'.toUInt8 ∧ c.peekAt 1 = some '/'.toUInt8 then c.skipLineComment.getToken
      else if b = '/'.toUInt8 ∧ c.peekAt 1 = some '*'.toUInt8 then
        match c.skipBlockComment.1 with
        | .error f => some (.fault f, c.skipBlockComment.2)
        | .ok _ => c.skipBlockComment.2.getToken
      else c.scan b := by
  have stays := h.skipWhile_eq_self (fun _ => isGap_iff) (fun _ => isAscii_of_blank) noBlank
  rw [getToken]
  simp only [stays]
  split
  · rename_i none
    rw [stays, peeked] at none
    cases none
  · rename_i b' peeked'
    rw [stays, peeked] at peeked'
    cases peeked'
    rfl

theorem getToken_of_nil (h : Stands text front [] c) : c.getToken = some (.finish, c) := by
  have peeked : c.peek = none := h.among.peek
  have stays := h.skipWhile_eq_self (fun _ => isGap_iff) (fun _ => isAscii_of_blank) (by simp)
  rw [getToken]
  simp only [stays]
  split
  · rfl
  · rename_i b peeked'
    rw [stays, peeked] at peeked'
    cases peeked'

theorem getToken_of_line (h : Stands text front ('/' :: '/' :: rest) c) :
    c.getToken = c.skipLineComment.getToken := by
  have peeked := h.peek_of_cons (by decide)
  rw [h.getToken_of_peek peeked (by rintro x ⟨⟩; decide)]
  exact if_pos ((h.begins_iff peeked (by decide)).mpr ⟨rest, rfl⟩)

theorem getToken_of_block (h : Stands text front ('/' :: '*' :: rest) c) :
    c.getToken =
      match c.skipBlockComment.1 with
      | .error f => some (.fault f, c.skipBlockComment.2)
      | .ok _ => c.skipBlockComment.2.getToken := by
  have peeked := h.peek_of_cons (by decide)
  rw [h.getToken_of_peek peeked (by rintro x ⟨⟩; decide), if_neg, if_pos]
  · exact (h.begins_iff peeked (by decide)).mpr ⟨rest, rfl⟩
  · rw [h.begins_iff peeked (by decide)]
    rintro ⟨more, he⟩
    cases he

theorem getToken_of_scan {b : UInt8} (h : Stands text front (x :: rest) c) (peeked : c.peek = some b)
    (noGap : trivia (x :: rest) = 0) (noComment : ¬ ['/', '*'] <+: x :: rest) :
    c.getToken = c.scan b := by
  have noBlank : ∀ y, (x :: rest).head? = some y → y ∉ [' ', '\t', '\r', '\n'] := by
    rintro y ⟨⟩ blank
    rw [trivia_blank blank] at noGap
    cases noGap
  rw [h.getToken_of_peek peeked noBlank, if_neg, if_neg]
  · rwa [h.begins_iff peeked (by decide)]
  · rw [h.begins_iff peeked (by decide)]
    rintro ⟨more, he⟩
    rw [← he, List.cons_append, List.cons_append, trivia.eq_2] at noGap
    cases noGap

theorem line_of_body {body : List Char} (noBreak : '\n' ∉ body) :
    '\n'.toUInt8 ∉ utf8 ('/' :: '/' :: body) := by
  rw [mem_utf8_iff (by decide)]
  simpa using noBreak

theorem skipLineComment {body : List Char}
    (h : Stands text front ('/' :: '/' :: body ++ '\n' :: rest) c) (noBreak : '\n' ∉ body) :
    Stands text (front ++ ('/' :: '/' :: body ++ ['\n'])) rest c.skipLineComment := by
  have among := h.among
  rw [utf8_append] at among
  have passed : Among text (utf8 front ++ (utf8 ('/' :: '/' :: body) ++ ['\n'.toUInt8])) (utf8 rest)
      c.skipLineComment := among.skipLineComment (line_of_body noBreak)
  refine .of_among (utf8 rest) ?_ ?_
  · rw [h.split]
    simp
  · rw [utf8_append, utf8_append]
    exact passed

theorem skipLineComment_end {body : List Char} (h : Stands text front ('/' :: '/' :: body) c)
    (noBreak : '\n' ∉ body) :
    Stands text (front ++ '/' :: '/' :: body) [] c.skipLineComment := by
  refine .of_among [] ?_ ?_
  · rw [h.split, List.append_nil]
  · rw [utf8_append]
    exact h.among.skipLineComment_end (line_of_body noBreak)

theorem opens_of_body {body : List Char} (opens : ¬ ['*', '/'] <:+: body) :
    ¬ ['*'.toUInt8, '/'.toUInt8] <:+: utf8 body :=
  mt (infix_of_infix_utf8 (by decide) (by decide)) opens

theorem skipBlockComment {body : List Char}
    (h : Stands text front ('/' :: '*' :: (body ++ '*' :: '/' :: rest)) c)
    (opens : ¬ ['*', '/'] <:+: body) :
    c.skipBlockComment.1 = .ok () ∧
      Stands text (front ++ '/' :: '*' :: (body ++ ['*', '/'])) rest c.skipBlockComment.2 := by
  have among := (h.jump (by decide) (by decide) (by decide)).among
  rw [utf8_append body] at among
  obtain ⟨c', closed, passed⟩ : ∃ c', c.skipBlockComment = (.ok (), c') ∧
      Among text (utf8 (front ++ ['/', '*']) ++ (utf8 body ++ utf8 ['*', '/'])) (utf8 rest) c' :=
    among.closeComment c.position (opens_of_body opens)
  rw [closed]
  refine ⟨rfl, .of_among (utf8 rest) ?_ ?_⟩
  · rw [h.split]
    simp
  · rw [← utf8_append, ← utf8_append, List.append_assoc] at passed
    exact passed

theorem skipBlockComment_end {body : List Char} (h : Stands text front ('/' :: '*' :: body) c)
    (opens : ¬ ['*', '/'] <:+: body) :
    c.skipBlockComment.1 = .error (.lexical c.position .unclosedComment) ∧
      Stands text (front ++ '/' :: '*' :: body) [] c.skipBlockComment.2 := by
  have among := (h.jump (by decide) (by decide) (by decide)).among
  obtain ⟨c', ends, passed⟩ := among.closeComment_end c.position (opens_of_body opens)
  rw [Cursor.skipBlockComment, ends]
  refine ⟨rfl, .of_among [] ?_ ?_⟩
  · rw [h.split, List.append_nil]
  · rw [← utf8_append, List.append_assoc] at passed
    exact passed

/-! ## Items -/

/-- Behind a gap a cursor reads what it would read if it had stood there. -/
theorem getToken_of_gap (h : Stands text front (gap ++ rest) c) (isGap : Gap gap rest) :
    ∃ c', c.getToken = c'.getToken ∧ Stands text (front ++ gap) rest c' := by
  induction isGap generalizing front c with
  | nil => exact ⟨c, rfl, by rwa [List.append_nil]⟩
  | @blank x gap rest blank _ ih =>
    obtain ⟨c', same, stands⟩ := ih (h.bump (isAscii_of_blank blank))
    exact ⟨c', (h.getToken_of_blank blank).trans same, by rwa [List.append_cons]⟩
  | @line body gap rest noBreak _ ih =>
    have split : '/' :: '/' :: (body ++ '\n' :: gap) ++ rest =
        '/' :: '/' :: body ++ '\n' :: (gap ++ rest) := by simp
    rw [split] at h
    obtain ⟨c', same, stands⟩ := ih (h.skipLineComment noBreak)
    exact ⟨c', h.getToken_of_line.trans same, by simpa using stands⟩
  | lastLine noBreak =>
    rw [List.append_nil] at h
    exact ⟨_, h.getToken_of_line, h.skipLineComment_end noBreak⟩
  | @block body gap rest opens _ ih =>
    have split : '/' :: '*' :: (body ++ '*' :: '/' :: gap) ++ rest =
        '/' :: '*' :: (body ++ '*' :: '/' :: (gap ++ rest)) := by simp
    rw [split] at h
    obtain ⟨closed, passed⟩ := h.skipBlockComment opens
    obtain ⟨c', same, stands⟩ := ih passed
    refine ⟨c', ?_, by simpa using stands⟩
    rw [h.getToken_of_block, closed]
    exact same

theorem unclosed_of_lexes {lexeme body : List Char} {content : Except LexicalCause Token}
    (lexes : Lexes lexeme rest content) (whole : lexeme ++ rest = '/' :: '*' :: body) :
    content = .error .unclosedComment ∧ rest = [] ∧ lexeme = '/' :: '*' :: body := by
  obtain ⟨x, cs, split, read⟩ := lexeme_of_lexes lexes
  rw [whole] at split
  cases split
  obtain ⟨content_eq, length⟩ := Lexeme.mk.inj read
  have none : rest = [] := by
    have total := congrArg List.length whole
    rw [List.length_append, ← length] at total
    exact List.length_eq_zero_iff.mp (by simpa using total)
  rw [none, List.append_nil] at whole
  exact ⟨content_eq.symm, none, whole⟩

/-- A cursor reads the lexeme behind the longest gap. -/
theorem getToken_of_lexes {lexeme : List Char} {content : Except LexicalCause Token}
    (h : Stands text front (gap ++ (lexeme ++ rest)) c) (longest : LongestGap gap (lexeme ++ rest))
    (lexes : Lexes lexeme rest content) :
    Reads text (front ++ gap ++ lexeme) rest (itemAt (Position.start.past (front ++ gap)) content)
      c.getToken := by
  obtain ⟨isGap, noGap⟩ := longestGap_iff.mp longest
  obtain ⟨c', same, stands⟩ := h.getToken_of_gap isGap
  rw [same, ← stands.position_eq]
  by_cases comment : ['/', '*'] <+: lexeme ++ rest
  · obtain ⟨body, whole⟩ := comment
    obtain ⟨rfl, rfl, rfl⟩ := unclosed_of_lexes lexes whole.symm
    rw [List.append_nil] at stands noGap
    obtain ⟨ends, behind⟩ := stands.skipBlockComment_end (not_infix_of_trivia noGap)
    refine ⟨_, ?_, behind⟩
    rw [stands.getToken_of_block, ends]
    rfl
  · obtain ⟨b, peeked, reads⟩ := stands.scan_of_lexes noGap comment lexes
    obtain ⟨x, cs, split, -⟩ := lexeme_of_lexes lexes
    rw [split] at stands noGap comment
    rwa [stands.getToken_of_scan peeked noGap comment]

end Stands

end Cursor

end TweenScript
