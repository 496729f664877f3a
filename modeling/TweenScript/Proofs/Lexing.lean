import Mathlib.Data.Nat.Digits.Defs
import TweenScript.Token.Scanner

/-!
# The lexical grammar

What stands at the front of a text, said without a scanner: the runs of blanks and comments
(`Lexical.Gap`), the lexemes with what they say (`Lexical.Lexes`), and the items that are a longest
run with a lexeme behind it (`Lexical.Step`). A scanner reads exactly these items
(`Scanner.next_eq_iff`).
-/

namespace TweenScript

namespace Lexical

/-! ## Runs of characters -/

/-- `run` is the longest run of characters of a class at the front of `run ++ rest`. -/
structure Spans (p : Char → Prop) (run rest : List Char) : Prop where
  inside : ∀ c ∈ run, p c
  ends : ∀ c, rest.head? = some c → ¬ p c

/-- Letters, `$` and `_` begin a word. -/
def WordStart (c : Char) : Prop :=
  c.isAlpha ∨ c = '$' ∨ c = '_'

/-- Letters, digits, `$` and `_` go on with it. -/
def WordPart (c : Char) : Prop :=
  c.isAlpha ∨ c.isDigit ∨ c = '$' ∨ c = '_'

/-- The digits of base sixteen in the order of their values. -/
def digits : List Char :=
  ['0', '1', '2', '3', '4', '5', '6', '7', '8', '9', 'a', 'b', 'c', 'd', 'e', 'f']

/-- Digits of base sixteen, in both cases. -/
def HexDigit (c : Char) : Prop :=
  c.toLower ∈ digits

/-- The number that digits spell in a base, the last one counting least. -/
def value (base : Nat) (cs : List Char) : Nat :=
  Nat.ofDigits base (cs.reverse.map fun c => digits.idxOf c.toLower)

/-! ## Blanks and comments -/

/-- `gap` is a run of blanks and comments before `rest`. -/
inductive Gap : List Char → List Char → Prop where
  | nil {rest : List Char} : Gap [] rest
  | blank {c : Char} {gap rest : List Char} (h : c ∈ [' ', '\t', '\r', '\n'])
    (more : Gap gap rest) : Gap (c :: gap) rest
  | line {body gap rest : List Char} (h : '\n' ∉ body) (more : Gap gap rest) :
    Gap ('/' :: '/' :: (body ++ '\n' :: gap)) rest
  | lastLine {body : List Char} (h : '\n' ∉ body) : Gap ('/' :: '/' :: body) []
  | block {body gap rest : List Char} (h : ¬ ['*', '/'] <:+: body) (more : Gap gap rest) :
    Gap ('/' :: '*' :: (body ++ '*' :: '/' :: gap)) rest

/-- `gap` is the longest run of blanks and comments at the front of `gap ++ rest`. -/
structure LongestGap (gap rest : List Char) : Prop where
  isGap : Gap gap rest
  longest : ∀ gap' rest', gap' ++ rest' = gap ++ rest → Gap gap' rest' → gap'.length ≤ gap.length

/-! ## Lexemes -/

/-- Words that are no identifiers. -/
def keywords : List (String × Token) :=
  [("if", .symbol .when), ("true", .number 1), ("false", .number 0)]

/-- What a word says. -/
def meaning (word : String) : Token :=
  (keywords.lookup word).getD (.identifier word)

/-- The spellings of operators and symbols. -/
def spellings : List (List Char × Token) := [
  (['+'], .operator .plus), (['-'], .operator .minus),
  (['*'], .operator .star), (['/'], .operator .slash),
  (['&'], .operator .and), (['&', '&'], .operator .and),
  (['|'], .operator .or), (['|', '|'], .operator .or),
  (['='], .operator .equal), (['=', '='], .operator .equal),
  (['!'], .operator .not), (['!', '='], .operator .notEqual),
  (['<'], .operator .less), (['<', '='], .operator .lessEqual),
  (['>'], .operator .greater), (['>', '='], .operator .greaterEqual),
  (['('], .symbol .lparen), ([')'], .symbol .rparen),
  (['\x7b'], .symbol .lbrace), (['\x7d'], .symbol .rbrace),
  (['.'], .symbol .dot), ([';'], .symbol .semicolon), ([','], .symbol .comma),
  (['?'], .symbol .question), ([':'], .symbol .colon)]

/-- The mark that a decimal literal may end in: if there is one, it belongs to the literal. -/
inductive Suffix : List Char → List Char → Prop where
  | mark {rest : List Char} : Suffix ['f'] rest
  | none {rest : List Char} (h : rest.head? ≠ some 'f') : Suffix [] rest

/-- The text begins like a hexadecimal literal. -/
def BeginsHex (cs : List Char) : Prop :=
  ['0', 'x'] <+: cs ∨ ['0', 'X'] <+: cs

/-- `lexeme` is what is read before `rest`, where no gap stands, and what it says. -/
inductive Lexes : List Char → List Char → Except LexicalCause Token → Prop where
  | word {first : Char} {run rest : List Char} (begins : WordStart first)
    (spans : Spans WordPart run rest) :
    Lexes (first :: run) rest (.ok (meaning (String.ofList (first :: run))))
  | hex {mark : Char} {run rest : List Char} (marked : mark = 'x' ∨ mark = 'X')
    (spans : Spans HexDigit run rest) (nonempty : run ≠ []) (fits : value 16 run < 2 ^ 32) :
    Lexes ('0' :: mark :: run) rest (.ok (.number (Float.ofNat (value 16 run))))
  | badHex {mark : Char} {run rest : List Char} (marked : mark = 'x' ∨ mark = 'X')
    (spans : Spans HexDigit run rest) (bad : run = [] ∨ 2 ^ 32 ≤ value 16 run) :
    Lexes ('0' :: mark :: run) rest (.error (.badHex (String.ofList ('0' :: mark :: run))))
  | whole {run suffix rest : List Char} (decimal : ¬ BeginsHex (run ++ (suffix ++ rest)))
    (spans : Spans (·.isDigit) run (suffix ++ rest)) (nonempty : run ≠ [])
    (noPoint : (suffix ++ rest).head? ≠ some '.') (ends : Suffix suffix rest) :
    Lexes (run ++ suffix) rest (.ok (.number (Decimal.mk (value 10 run) 0).toFloat))
  | fraction {run fraction suffix rest : List Char} (all : ∀ c ∈ run, c.isDigit) (nonempty : run ≠ [])
    (spans : Spans (·.isDigit) fraction (suffix ++ rest)) (ends : Suffix suffix rest) :
    Lexes (run ++ '.' :: (fraction ++ suffix)) rest
      (.ok (.number (Decimal.mk (value 10 (run ++ fraction)) (-fraction.length)).toFloat))
  | spelling {text rest : List Char} {t : Token} (mem : (text, t) ∈ spellings)
    (longest : ∀ p ∈ spellings, p.1 <+: text ++ rest → p.1.length ≤ text.length)
    (noComment : ¬ ['/', '*'] <+: text ++ rest) : Lexes text rest (.ok t)
  | unclosedComment {body : List Char} (h : ¬ ['*', '/'] <:+: body) :
    Lexes ('/' :: '*' :: body) [] (.error .unclosedComment)
  | unknownCharacter {c : Char} {rest : List Char} (noWord : ¬ WordStart c) (noDigit : ¬ c.isDigit)
    (noSpelling : ∀ p ∈ spellings, ¬ p.1 <+: c :: rest) :
    Lexes [c] rest (.error (.unknownCharacter c))

/-! ## Items -/

/-- The items of the grammar: behind a longest gap, the end of the text, a token, or a fault where its
lexeme begins. The scanner stands behind the lexeme in the end. -/
inductive Step (s : Scanner) : Item → Scanner → Prop where
  | finish (gap : LongestGap s.rest []) :
    Step s .finish ⟨s.source, [], s.position.past s.rest⟩
  | token {gap lexeme rest : List Char} {t : Token} (split : s.rest = gap ++ (lexeme ++ rest))
    (longest : LongestGap gap (lexeme ++ rest)) (lexes : Lexes lexeme rest (.ok t)) :
    Step s (.token t) ⟨s.source, rest, (s.position.past gap).past lexeme⟩
  | fault {gap lexeme rest : List Char} {cause : LexicalCause}
    (split : s.rest = gap ++ (lexeme ++ rest)) (longest : LongestGap gap (lexeme ++ rest))
    (lexes : Lexes lexeme rest (.error cause)) :
    Step s (.fault (.lexical (s.position.past gap) cause))
      ⟨s.source, rest, (s.position.past gap).past lexeme⟩

end Lexical

end TweenScript
