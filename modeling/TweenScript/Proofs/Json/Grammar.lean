import TweenScript.Json
import TweenScript.Proofs.Lexing

/-!
# The grammar of JSON

`Json.Spells c cs v`: the characters `cs`, all of them and nothing else, spell `v` of category `c`.
There is one constructor for each production. A derivation says nothing about the order in which a
text is read: parts stand side by side, with blanks around every value and every key.
-/

namespace TweenScript

namespace Json

/-! ## Blanks -/

/-- The characters that may stand between the parts of a text. -/
def Gap (cs : List Char) : Prop :=
  ∀ c ∈ cs, c ∈ [' ', '\t', '\r', '\n']

/-! ## Numbers -/

/-- One decimal digit or more. -/
def Digits (cs : List Char) : Prop :=
  cs ≠ [] ∧ ∀ c ∈ cs, c.isDigit

/-- A whole number has no zero before other digits. -/
def Whole (cs : List Char) : Prop :=
  Digits cs ∧ (cs.head? = some '0' → cs = ['0'])

/-- A fraction and its digits. -/
inductive Fraction : List Char → List Char → Prop where
  | absent : Fraction [] []
  | point {ds : List Char} (digits : Digits ds) : Fraction ('.' :: ds) ds

/-- An exponent and its value. -/
inductive Exponent : List Char → Option Int → Prop where
  | absent : Exponent [] none
  | plain {mark : Char} {ds : List Char} (marked : mark = 'e' ∨ mark = 'E') (digits : Digits ds) :
    Exponent (mark :: ds) (some (Nat.ofDigitChars 10 ds 0))
  | plus {mark : Char} {ds : List Char} (marked : mark = 'e' ∨ mark = 'E') (digits : Digits ds) :
    Exponent (mark :: '+' :: ds) (some (Nat.ofDigitChars 10 ds 0))
  | minus {mark : Char} {ds : List Char} (marked : mark = 'e' ∨ mark = 'E') (digits : Digits ds) :
    Exponent (mark :: '-' :: ds) (some (-Nat.ofDigitChars 10 ds 0))

/-- The sign of a number. -/
def sign (negative : Bool) : List Char :=
  if negative then ['-'] else []

/-- A number and what it says. -/
inductive Number : List Char → Numeral → Prop where
  | mk (negative : Bool) {whole fractionText fraction exponentText : List Char}
    {exponent : Option Int} (isWhole : Whole whole) (isFraction : Fraction fractionText fraction)
    (isExponent : Exponent exponentText exponent) :
    Number (sign negative ++ whole ++ fractionText ++ exponentText)
      ⟨negative, whole, fraction, exponent⟩

/-! ## Strings -/

/-- Four digits of base sixteen and the number that they spell. -/
structure Quad (q : List Char) (n : Nat) : Prop where
  length : q.length = 4
  digits : ∀ c ∈ q, Lexical.HexDigit c
  value : Lexical.value 16 q = n

/-- The characters that a letter behind a backslash stands for. -/
def shortEscapes : List (Char × Char) := [
  ('"', '"'), ('\\', '\\'), ('/', '/'), ('b', '\x08'), ('f', '\x0c'), ('n', '\n'), ('r', '\r'),
  ('t', '\t')]

/-- The first half of the surrogate pair of a character beyond the basic plane. -/
def leadOf (c : Char) : Nat :=
  0xD800 + (c.toNat - 0x10000) / 0x400

/-- The second half. -/
def trailOf (c : Char) : Nat :=
  0xDC00 + (c.toNat - 0x10000) % 0x400

/-- The escape of a code unit stands at the front of `cs`. -/
def BeginsUnit (cs : List Char) (n : Nat) : Prop :=
  ∃ q more, cs = '\\' :: 'u' :: (q ++ more) ∧ Quad q n

/-- The characters between quotes and the text that they say. A surrogate without its partner, which
no character has, leaves the string without a text. -/
inductive Chars : List Char → Option (List Char) → Prop where
  | nil : Chars [] (some [])
  | plain {c : Char} {cs : List Char} {text : Option (List Char)} (visible : 0x20 ≤ c.toNat)
    (noQuote : c ≠ '"') (noBackslash : c ≠ '\\') (more : Chars cs text) :
    Chars (c :: cs) (text.map (c :: ·))
  | short {e c : Char} {cs : List Char} {text : Option (List Char)} (mem : (e, c) ∈ shortEscapes)
    (more : Chars cs text) : Chars ('\\' :: e :: cs) (text.map (c :: ·))
  | unit {q cs : List Char} {c : Char} {text : Option (List Char)} (quad : Quad q c.toNat)
    (more : Chars cs text) : Chars ('\\' :: 'u' :: (q ++ cs)) (text.map (c :: ·))
  | pair {q r cs : List Char} {c : Char} {text : Option (List Char)} (beyond : 0x10000 ≤ c.toNat)
    (lead : Quad q (leadOf c)) (trail : Quad r (trailOf c)) (more : Chars cs text) :
    Chars ('\\' :: 'u' :: (q ++ '\\' :: 'u' :: (r ++ cs))) (text.map (c :: ·))
  | lone {q cs : List Char} {n : Nat} {text : Option (List Char)} (quad : Quad q n)
    (surrogate : 0xD800 ≤ n ∧ n < 0xE000)
    (noPair : n < 0xDC00 → ∀ m, 0xDC00 ≤ m → m < 0xE000 → ¬ BeginsUnit cs m)
    (more : Chars cs text) : Chars ('\\' :: 'u' :: (q ++ cs)) none

/-- Characters in quotes. -/
def quoted (cs : List Char) : List Char :=
  '"' :: (cs ++ ['"'])

/-! ## Values -/

/-- The categories of the grammar. -/
inductive Category where
  | value
  /-- A value with blanks around it. -/
  | element
  /-- Elements between commas, one or more. -/
  | items
  | member
  /-- Members between commas, one or more. -/
  | members

/-- What texts of a category say. -/
def Category.Tree : Category → Type
  | value | element => Json
  | items => List Json
  | member => Member
  | members => List Member

/-- `Spells c cs v`: the characters `cs` spell `v` of category `c`. -/
inductive Spells : (c : Category) → List Char → c.Tree → Prop where
  | nullWord : Spells .value ['n', 'u', 'l', 'l'] Json.null
  | trueWord : Spells .value ['t', 'r', 'u', 'e'] (Json.bool true)
  | falseWord : Spells .value ['f', 'a', 'l', 's', 'e'] (Json.bool false)
  | number {cs : List Char} {n : Numeral} (h : Number cs n) : Spells .value cs (Json.number n)
  | string {cs : List Char} {text : Option (List Char)} (h : Chars cs text) :
    Spells .value (quoted cs) (Json.string (text.map String.ofList))
  | emptyArray {gap : List Char} (h : Gap gap) :
    Spells .value ('[' :: (gap ++ [']'])) (Json.array [])
  | array {cs : List Char} {items : List Json} (h : Spells .items cs items) :
    Spells .value ('[' :: (cs ++ [']'])) (Json.array items)
  | emptyObject {gap : List Char} (h : Gap gap) :
    Spells .value ('{' :: (gap ++ ['}'])) (Json.object [])
  | object {cs : List Char} {members : List Member} (h : Spells .members cs members) :
    Spells .value ('{' :: (cs ++ ['}'])) (Json.object members)
  | element {before cs after : List Char} {j : Json} (hb : Gap before) (h : Spells .value cs j)
    (ha : Gap after) : Spells .element (before ++ (cs ++ after)) j
  | oneItem {cs : List Char} {j : Json} (h : Spells .element cs j) :
    Spells .items cs ([j] : List Json)
  | moreItems {cs ds : List Char} {j : Json} {items : List Json} (h : Spells .element cs j)
    (more : Spells .items ds items) : Spells .items (cs ++ ',' :: ds) (j :: items : List Json)
  | member {before ks after cs : List Char} {key : Option (List Char)} {j : Json}
    (hb : Gap before) (hk : Chars ks key) (ha : Gap after) (h : Spells .element cs j) :
    Spells .member (before ++ (quoted ks ++ (after ++ ':' :: cs)))
      (⟨key.map String.ofList, j⟩ : Member)
  | oneMember {cs : List Char} {m : Member} (h : Spells .member cs m) :
    Spells .members cs ([m] : List Member)
  | moreMembers {cs ds : List Char} {m : Member} {members : List Member}
    (h : Spells .member cs m) (more : Spells .members ds members) :
    Spells .members (cs ++ ',' :: ds) (m :: members : List Member)

end Json

end TweenScript
