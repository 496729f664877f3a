import TweenScript.Fault

/-!
# Lexemes

How far the front of a text reaches and what it says: `trivia` measures the blanks and comments
there, `lexeme` reads one token. Both count characters and leave positions to the scanner.
-/

namespace TweenScript

/-! ## Trivia -/

/-- The characters that may stand anywhere between tokens. -/
def isGap (c : Char) : Bool :=
  c == ' ' || c == '\t' || c == '\r' || c == '\n'

/-- How far the first `*/` reaches, if there is one. -/
def commentEnd : List Char → Option Nat
  | [] => none
  | '*' :: '/' :: _ => some 2
  | _ :: cs => (commentEnd cs).map (· + 1)

/-- The length of the longest run of blanks and comments at the front. A comment that is never
closed belongs to no run. -/
def trivia : List Char → Nat
  | [] => 0
  | '/' :: '/' :: cs =>
    let n := (cs.takeWhile (· ≠ '\n')).length
    trivia (cs.drop n) + (n + 2)
  | '/' :: '*' :: cs =>
    match commentEnd cs with
    | none => 0
    | some n => trivia (cs.drop n) + (n + 2)
  | c :: cs => if isGap c then trivia cs + 1 else 0
termination_by cs => cs.length

/-! ## Tokens -/

/-- Letters, `$` and `_` begin a word. -/
def beginsWord (c : Char) : Bool :=
  c.isAlpha || c == '$' || c == '_'

/-- Letters, digits, `$` and `_` continue a word. -/
def continuesWord (c : Char) : Bool :=
  c.isAlphanum || c == '$' || c == '_'

/-- Digits of base sixteen, in both cases. -/
def isHexDigit (c : Char) : Bool :=
  c.isDigit || ('a' ≤ c && c ≤ 'f') || ('A' ≤ c && c ≤ 'F')

/-- The value of a digit of base sixteen. -/
def hexDigitValue (c : Char) : Nat :=
  if c.isDigit then c.toNat - '0'.toNat
  else if 'a' ≤ c then c.toNat - 'a'.toNat + 10
  else c.toNat - 'A'.toNat + 10

/-- The number that digits of base sixteen spell. -/
def hexValue (cs : List Char) : Nat :=
  cs.foldl (fun n c => 16 * n + hexDigitValue c) 0

/-- What the front of a text says and over how many characters. -/
structure Lexeme where
  content : Except LexicalCause Token
  length : Nat

namespace Lexeme

/-- A lexeme that is an operator. -/
def operator (op : Operator) (length : Nat) : Lexeme :=
  ⟨.ok (.operator op), length⟩

/-- A lexeme that is a symbol of one character. -/
def symbol (s : Symbol) : Lexeme :=
  ⟨.ok (.symbol s), 1⟩

/-- The token that a whole word stands for. -/
def wordToken (word : String) : Token :=
  if word = "if" then .symbol .when
  else if word = "true" then .number 1
  else if word = "false" then .number 0
  else .identifier word

/-- The longest word at the front of `cs`. -/
def word (cs : List Char) : Lexeme :=
  let taken := cs.takeWhile continuesWord
  ⟨.ok (wordToken (String.ofList taken)), taken.length⟩

/-- A hexadecimal literal, after its zero: `mark` is the letter and `cs` what follows. -/
def hex (mark : Char) (cs : List Char) : Lexeme :=
  let digits := cs.takeWhile isHexDigit
  let content :=
    if digits = [] ∨ Nat.pow 2 32 ≤ hexValue digits then
      .error (.badHex (String.ofList ('0' :: mark :: digits)))
    else
      .ok (.number (Float.ofNat (hexValue digits)))
  ⟨content, digits.length + 2⟩

/-- The length of the mark that a decimal literal may end in. -/
def suffixLength : List Char → Nat
  | 'f' :: _ => 1
  | _ => 0

/-- A decimal literal: digits, an optional point with the digits after it, an optional `f`. -/
def decimal (cs : List Char) : Lexeme :=
  let whole := cs.takeWhile Char.isDigit
  let rest := cs.dropWhile Char.isDigit
  match rest with
  | '.' :: tail =>
    let fraction := tail.takeWhile Char.isDigit
    ⟨.ok (.number (Decimal.ofDigits whole fraction).toFloat),
      whole.length + 1 + fraction.length + suffixLength (tail.dropWhile Char.isDigit)⟩
  | _ =>
    ⟨.ok (.number (Decimal.ofDigits whole []).toFloat), whole.length + suffixLength rest⟩

/-- An operator of one character, or of two when `second` comes next. -/
def paired (one two : Operator) (second : Char) (cs : List Char) : Lexeme :=
  if cs.head? = some second then operator two 2 else operator one 1

end Lexeme

/-- The lexeme at the front of `c :: cs`, where no trivia stands. A comment there is unclosed and
takes all of the text. -/
def lexeme (c : Char) (cs : List Char) : Lexeme :=
  if beginsWord c then Lexeme.word (c :: cs)
  else if c.isDigit then
    match c, cs with
    | '0', 'x' :: rest => Lexeme.hex 'x' rest
    | '0', 'X' :: rest => Lexeme.hex 'X' rest
    | _, _ => Lexeme.decimal (c :: cs)
  else
    match c with
    | '+' => .operator .plus 1
    | '-' => .operator .minus 1
    | '*' => .operator .star 1
    | '/' =>
      if cs.head? = some '*' then ⟨.error .unclosedComment, cs.length + 1⟩
      else .operator .slash 1
    | '&' => .paired .and .and '&' cs
    | '|' => .paired .or .or '|' cs
    | '=' => .paired .equal .equal '=' cs
    | '!' => .paired .not .notEqual '=' cs
    | '<' => .paired .less .lessEqual '=' cs
    | '>' => .paired .greater .greaterEqual '=' cs
    | '(' => .symbol .lparen
    | ')' => .symbol .rparen
    | '{' => .symbol .lbrace
    | '}' => .symbol .rbrace
    | '.' => .symbol .dot
    | ';' => .symbol .semicolon
    | ',' => .symbol .comma
    | '?' => .symbol .question
    | ':' => .symbol .colon
    | _ => ⟨.error (.unknownCharacter c), 1⟩

/-! ## Progress -/

theorem Lexeme.word_length_pos {c : Char} (h : beginsWord c) (cs : List Char) :
    0 < (Lexeme.word (c :: cs)).length := by
  have hc : continuesWord c := by
    simp only [beginsWord, continuesWord, Char.isAlphanum, Bool.or_eq_true] at h ⊢
    rcases h with (h | h) | h <;> simp [h]
  simp [Lexeme.word, hc]

theorem Lexeme.decimal_length_pos {c : Char} (h : c.isDigit) (cs : List Char) :
    0 < (Lexeme.decimal (c :: cs)).length := by
  simp only [Lexeme.decimal]
  split <;> simp only [List.takeWhile_cons, h, if_true, List.length_cons] <;> omega

theorem Lexeme.paired_length_pos (one two : Operator) (second : Char) (cs : List Char) :
    0 < (Lexeme.paired one two second cs).length := by
  unfold Lexeme.paired Lexeme.operator
  split <;> simp

theorem lexeme_length_pos (c : Char) (cs : List Char) : 0 < (lexeme c cs).length := by
  unfold lexeme
  split
  · exact Lexeme.word_length_pos (by assumption) cs
  · split
    · split
      · simp [Lexeme.hex]
      · simp [Lexeme.hex]
      · exact Lexeme.decimal_length_pos (by assumption) cs
    · split <;>
        first
        | exact Lexeme.paired_length_pos ..
        | (split <;> simp [Lexeme.operator])
        | simp [Lexeme.operator, Lexeme.symbol]

end TweenScript
