/-!
# Texts

Positions count the lines of a text from one and the bytes of its UTF-8 form from zero. Names are
blank if nothing but white space is in them. What is read off the front of a text, of characters or
of tokens, leaves less of it.
-/

namespace TweenScript

/-! ## Positions -/

/-- A place in a text: its line, from one, and its byte offset, from zero. -/
structure Position where
  line : Nat
  offset : Nat
  deriving DecidableEq, Repr

/-- The number of bytes in the UTF-8 form of `cs`. -/
def utf8Length : List Char → Nat
  | [] => 0
  | c :: cs => c.utf8Size + utf8Length cs

@[simp] theorem utf8Length_append (xs ys : List Char) :
    utf8Length (xs ++ ys) = utf8Length xs + utf8Length ys := by
  induction xs with
  | nil => simp [utf8Length]
  | cons c cs ih => simp [utf8Length, ih, Nat.add_assoc]

namespace Position

/-- The front of every text. -/
def start : Position := ⟨1, 0⟩

/-- The place reached from `p` by passing over `cs`. -/
def past (p : Position) (cs : List Char) : Position :=
  ⟨p.line + cs.count '\n', p.offset + utf8Length cs⟩

@[simp] theorem past_nil (p : Position) : p.past [] = p := rfl

theorem past_append (p : Position) (xs ys : List Char) :
    p.past (xs ++ ys) = (p.past xs).past ys := by
  simp [past, Nat.add_assoc]

end Position

/-! ## Blanks -/

/-- The characters with the Unicode property `White_Space`. -/
def isBlank (c : Char) : Bool :=
  let n := c.toNat
  (0x09 ≤ n && n ≤ 0x0D) || n == 0x20 || n == 0x85 || n == 0xA0 || n == 0x1680 ||
    (0x2000 ≤ n && n ≤ 0x200A) || n == 0x2028 || n == 0x2029 || n == 0x202F || n == 0x205F ||
    n == 0x3000

/-- The characters left after the blanks at both ends are gone. -/
def trimBlanks (cs : List Char) : List Char :=
  ((cs.dropWhile isBlank).reverse.dropWhile isBlank).reverse

/-- `s` without the blanks at both ends. -/
def trim (s : String) : String :=
  String.ofList (trimBlanks s.toList)

/-! ## Reading off the front -/

/-- A value read off the front of a list of items, and what is left: fewer than `bound` items. -/
structure Parsed (ι α : Type) (bound : Nat) where
  value : α
  rest : List ι
  shorter : rest.length < bound

end TweenScript
