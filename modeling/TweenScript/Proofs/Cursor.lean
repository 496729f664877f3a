import TweenScript.Decimal.Literal
import TweenScript.Token.Scanner

/-!
# Cursors

A cursor reads a text byte by byte. It counts bytes and line breaks as it passes them, and jumps over
the two bytes that open a comment or a hexadecimal literal and over the whole of a character that
begins no lexeme. What it reads is cut out of the text between two byte offsets, and this fails
(`none`) where an offset is outside of the text or inside of a character. It never does, and the items
of a cursor are those of a scanner (`Cursor.Shows.getToken`).
-/

namespace TweenScript

/-- The piece of a text between two byte offsets. There is none if they are in the wrong order or not
between characters. -/
def slice? (text : String) (first last : Nat) : Option String := do
  let first ← text.pos? ⟨first⟩
  let last ← text.pos? ⟨last⟩
  if first ≤ last then some (text.extract first last) else none

/-- A byte offset in a text, from zero, and a line, from one. -/
structure Cursor where
  text : String
  pos : Nat
  line : Nat

namespace Cursor

/-- A cursor at the front of `text`. -/
def ofString (text : String) : Cursor :=
  ⟨text, 0, 1⟩

/-- The cursor back at the front of its text. -/
def rewind (c : Cursor) : Cursor :=
  { c with pos := 0, line := 1 }

def position (c : Cursor) : Position :=
  ⟨c.line, c.pos⟩

/-! ## Bytes -/

/-- The byte that is `n` bytes further on. -/
def peekAt (c : Cursor) (n : Nat) : Option UInt8 :=
  c.text.toByteArray[c.pos + n]?

/-- The byte that comes next. -/
def peek (c : Cursor) : Option UInt8 :=
  c.peekAt 0

/-- The cursor `n` bytes further on, on the same line. -/
def jump (c : Cursor) (n : Nat) : Cursor :=
  { c with pos := c.pos + n }

/-- Passes a byte, and returns it. -/
def bump (c : Cursor) : Option UInt8 × Cursor :=
  match c.peek with
  | none => (none, c)
  | some b =>
    (some b, { c with pos := c.pos + 1, line := if b = '\n'.toUInt8 then c.line + 1 else c.line })

/-- Passes the byte of the character `expected` if it comes next. -/
def bumpIf (c : Cursor) (expected : Char) : Bool × Cursor :=
  if c.peek = some expected.toUInt8 then (true, c.bump.2) else (false, c)

/-- The bytes that are left. -/
def left (c : Cursor) : Nat :=
  c.text.utf8ByteSize - c.pos

theorem lt_of_peekAt {c : Cursor} {n : Nat} {b : UInt8} (h : c.peekAt n = some b) :
    c.pos + n < c.text.utf8ByteSize := by
  have inside := (getElem?_eq_some_iff.mp h).1
  rwa [String.size_toByteArray] at inside

theorem left_bump_lt {c : Cursor} {b : UInt8} (h : c.peek = some b) : c.bump.2.left < c.left := by
  have inside := lt_of_peekAt h
  simp only [bump, h, left]
  omega

theorem left_lt_of_bump {c c' : Cursor} {b : UInt8} (h : c.bump = (some b, c')) :
    c'.left < c.left := by
  cases peeked : c.peek with
  | none =>
    rw [bump, peeked] at h
    cases h
  | some b' =>
    have less := left_bump_lt peeked
    rwa [h] at less

/-! ## Loops -/

/-- Passes the bytes of characters of a class. -/
def skipWhile (p : Char → Bool) (c : Cursor) : Cursor :=
  match _h : c.peek with
  | none => c
  | some b => if p (.ofUInt8 b) then c.bump.2.skipWhile p else c
termination_by c.left
decreasing_by exact left_bump_lt _h

/-- Passes a comment up to the end of its line. -/
def skipLineComment (c : Cursor) : Cursor :=
  match _h : c.bump with
  | (none, c) => c
  | (some b, c) => if b = '\n'.toUInt8 then c else c.skipLineComment
termination_by c.left
decreasing_by exact left_lt_of_bump _h

/-- Passes the rest of a comment that began at `start`. -/
def closeComment (start : Position) (c : Cursor) : Except Fault Unit × Cursor :=
  match _h : c.bump with
  | (none, c) => (.error (.lexical start .unclosedComment), c)
  | (some b, c) =>
    if b = '*'.toUInt8 ∧ c.peek = some '/'.toUInt8 then (.ok (), c.bump.2)
    else c.closeComment start
termination_by c.left
decreasing_by exact left_lt_of_bump _h

/-- Passes a comment that is closed. -/
def skipBlockComment (c : Cursor) : Except Fault Unit × Cursor :=
  (c.jump 2).closeComment c.position

/-! ### Loops leave no more than there was -/

theorem left_bump_le (c : Cursor) : c.bump.2.left ≤ c.left := by
  cases peeked : c.peek with
  | none => simp [bump, peeked]
  | some b => exact Nat.le_of_lt (left_bump_lt peeked)

theorem left_le_of_bump {c c' : Cursor} {b : Option UInt8} (h : c.bump = (b, c')) :
    c'.left ≤ c.left := by
  have le := left_bump_le c
  rwa [h] at le

theorem left_skipWhile_le (p : Char → Bool) (c : Cursor) : (c.skipWhile p).left ≤ c.left := by
  fun_induction skipWhile p c with
  | case1 | case3 => exact Nat.le_refl _
  | case2 c b peeked inside ih => exact Nat.le_trans ih (left_bump_le c)

theorem left_skipLineComment_le (c : Cursor) : c.skipLineComment.left ≤ c.left := by
  fun_induction skipLineComment c with
  | case1 c c' h => exact left_le_of_bump h
  | case2 c c' h => exact left_le_of_bump h
  | case3 c b c' h more ih => exact Nat.le_trans ih (left_le_of_bump h)

theorem left_closeComment_le (start : Position) (c : Cursor) :
    (c.closeComment start).2.left ≤ c.left := by
  fun_induction closeComment start c with
  | case1 c c' h => exact left_le_of_bump h
  | case2 c b c' h ends => exact Nat.le_trans (left_bump_le c') (left_le_of_bump h)
  | case3 c b c' h more ih => exact Nat.le_trans ih (left_le_of_bump h)

theorem left_skipLineComment_lt {c : Cursor} {b : UInt8} (h : c.peek = some b) :
    c.skipLineComment.left < c.left := by
  have less := left_bump_lt h
  have bumped : c.bump = (some b, c.bump.2) := by simp [bump, h]
  rw [skipLineComment, bumped]
  split
  · cases ‹_›
  · rename_i b' c' passed
    cases passed
    split
    · exact less
    · exact Nat.lt_of_le_of_lt (left_skipLineComment_le _) less

theorem left_skipBlockComment_lt {c : Cursor} {b : UInt8} (h : c.peek = some b) :
    c.skipBlockComment.2.left < c.left := by
  have inside := lt_of_peekAt h
  have le := left_closeComment_le c.position (c.jump 2)
  simp only [skipBlockComment, jump, left] at le ⊢
  omega

/-! ## Lexemes -/

/-- The piece of the text between the byte offset `first` and the cursor. -/
def since (c : Cursor) (first : Nat) : Option String :=
  slice? c.text first c.pos

/-- A word. -/
def scanWord (c : Cursor) : Option (Item × Cursor) := do
  let start := c.pos
  let c := c.skipWhile continuesWord
  let word ← c.since start
  return (.token (Lexeme.wordToken word), c)

/-- The number of 32 bits that digits of base sixteen spell. -/
def readHex? (digits : String) : Option Nat :=
  if digits.toList = [] ∨ Nat.pow 2 32 ≤ hexValue digits.toList then none
  else some (hexValue digits.toList)

/-- A hexadecimal literal. -/
def scanHex (c : Cursor) : Option (Item × Cursor) := do
  let start := c.position
  let c := c.jump 2
  let first := c.pos
  let c := c.skipWhile isHexDigit
  match readHex? (← c.since first) with
  | some n => return (.token (.number (Float.ofNat n)), c)
  | none => return (.fault (.lexical start (.badHex (← c.since start.offset))), c)

/-- A decimal literal. -/
def scanDecimal (c : Cursor) : Option (Item × Cursor) := do
  let start := c.position
  let c := c.skipWhile Char.isDigit
  let (point, c) := c.bumpIf '.'
  let c := if point then c.skipWhile Char.isDigit else c
  let text ← c.since start.offset
  let (_, c) := c.bumpIf 'f'
  match readFloat? text with
  | some v => return (.token (.number v), c)
  | none => return (.fault (.lexical start (.other ("invalid number '" ++ text ++ "'"))), c)

/-- A number. -/
def scanNumber (c : Cursor) : Option (Item × Cursor) :=
  if c.peek = some '0'.toUInt8 ∧ (c.peekAt 1 = some 'x'.toUInt8 ∨ c.peekAt 1 = some 'X'.toUInt8) then
    c.scanHex
  else c.scanDecimal

/-- An operator, or another one if the byte of `second` comes next. -/
def scanPaired (c : Cursor) (one two : Operator) (second : Char) : Option (Item × Cursor) :=
  let (found, c) := c.bumpIf second
  some (.token (.operator (if found then two else one)), c)

/-- Behind the first byte of a character that begins no lexeme, at `start`: passes the whole of it. -/
def skipUnknown (c : Cursor) (start : Nat) : Option (Item × Cursor) := do
  let tail ← slice? c.text start c.text.utf8ByteSize
  let unknown := tail.toList.headD '\ufffd'
  return (.fault (.lexical ⟨c.line, start⟩ (.unknownCharacter unknown)),
    { c with pos := start + unknown.utf8Size })

/-- The lexeme that begins with the byte `b`. -/
def scan (c : Cursor) (b : UInt8) : Option (Item × Cursor) :=
  if beginsWord (.ofUInt8 b) then c.scanWord
  else if (Char.ofUInt8 b).isDigit then c.scanNumber
  else
    let start := c.pos
    let c := c.bump.2
    match Char.ofUInt8 b with
    | '+' => some (.token (.operator .plus), c)
    | '-' => some (.token (.operator .minus), c)
    | '*' => some (.token (.operator .star), c)
    | '/' => some (.token (.operator .slash), c)
    | '&' => c.scanPaired .and .and '&'
    | '|' => c.scanPaired .or .or '|'
    | '=' => c.scanPaired .equal .equal '='
    | '!' => c.scanPaired .not .notEqual '='
    | '<' => c.scanPaired .less .lessEqual '='
    | '>' => c.scanPaired .greater .greaterEqual '='
    | '(' => some (.token (.symbol .lparen), c)
    | ')' => some (.token (.symbol .rparen), c)
    | '{' => some (.token (.symbol .lbrace), c)
    | '}' => some (.token (.symbol .rbrace), c)
    | '.' => some (.token (.symbol .dot), c)
    | ';' => some (.token (.symbol .semicolon), c)
    | ',' => some (.token (.symbol .comma), c)
    | '?' => some (.token (.symbol .question), c)
    | ':' => some (.token (.symbol .colon), c)
    | _ => c.skipUnknown start

/-! ## Items -/

/-- The next item, behind blanks and comments. -/
def getToken (c : Cursor) : Option (Item × Cursor) :=
  let c := c.skipWhile isGap
  match _h : c.peek with
  | none => some (.finish, c)
  | some b =>
    if b = '/'.toUInt8 ∧ c.peekAt 1 = some '/'.toUInt8 then c.skipLineComment.getToken
    else if b = '/'.toUInt8 ∧ c.peekAt 1 = some '*'.toUInt8 then
      let closed := c.skipBlockComment
      match closed.1 with
      | .error f => some (.fault f, closed.2)
      | .ok _ => closed.2.getToken
    else c.scan b
termination_by c.left
decreasing_by
  · exact Nat.lt_of_lt_of_le (left_skipLineComment_lt _h) (left_skipWhile_le ..)
  · exact Nat.lt_of_lt_of_le (left_skipBlockComment_lt _h) (left_skipWhile_le ..)

end Cursor

end TweenScript
