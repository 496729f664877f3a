import TweenScript.Token.Lexeme

/-!
# Scanners

A scanner stands at a place in a text and moves on by one item at a time: a token, a fault, or the
end of the text. After a fault it stands behind the lexeme at fault, so scanning can go on. Every
token and every fault takes up text (`Scanner.next_rest_lt`), so the items of a text are a list.
-/

namespace TweenScript

/-- What a scanner comes upon. -/
inductive Item where
  | token (t : Token)
  | fault (f : Fault)
  | finish
  deriving DecidableEq

/-- A place in a text. -/
structure Scanner where
  source : List Char
  /-- The text from the place on. -/
  rest : List Char
  position : Position
  deriving DecidableEq

namespace Scanner

/-- A scanner at the front of `text`. -/
def ofString (text : String) : Scanner :=
  ⟨text.toList, text.toList, .start⟩

/-- The scanner back at the front of its text. -/
def rewind (s : Scanner) : Scanner :=
  ⟨s.source, s.source, .start⟩

/-- The scanner `n` characters on. -/
def advance (s : Scanner) (n : Nat) : Scanner :=
  { s with rest := s.rest.drop n, position := s.position.past (s.rest.take n) }

/-- The next item, and the scanner behind it. A fault is reported where its lexeme begins. -/
def next (s : Scanner) : Item × Scanner :=
  let s := s.advance (trivia s.rest)
  match s.rest with
  | [] => (.finish, s)
  | c :: cs =>
    let found := lexeme c cs
    match found.content with
    | .ok t => (.token t, s.advance found.length)
    | .error cause => (.fault (.lexical s.position cause), s.advance found.length)

/-- Every item but the end takes up text. -/
theorem next_rest_lt {s s' : Scanner} {i : Item} (h : s.next = (i, s')) (hi : i ≠ .finish) :
    s'.rest.length < s.rest.length := by
  have hpos := lexeme_length_pos
  simp only [next] at h
  split at h
  · cases h; exact absurd rfl hi
  · rename_i c cs hrest
    have hle : cs.length + 1 ≤ s.rest.length := by
      have := congrArg List.length hrest
      simp only [advance, List.length_drop, List.length_cons] at this
      omega
    have hlt : ((s.advance (trivia s.rest)).advance (lexeme c cs).length).rest.length
        < s.rest.length := by
      have := hpos c cs
      rw [advance, List.length_drop, hrest, List.length_cons]
      omega
    split at h <;> cases h <;> exact hlt

/-- All items from here on with the scanner behind each, the end of the text being the last. -/
def items (s : Scanner) : List (Item × Scanner) :=
  match _h : s.next with
  | (.finish, s') => [(.finish, s')]
  | (.token t, s') => (.token t, s') :: s'.items
  | (.fault f, s') => (.fault f, s') :: s'.items
termination_by s.rest.length
decreasing_by all_goals exact next_rest_lt _h (by simp)

end Scanner

/-- The tokens up to the first item that is none, each with the scanner behind it. -/
structure Tokens where
  list : List (Token × Scanner)
  /-- The fault that stopped the scan short of the end. -/
  fault : Option Fault
  /-- The scanner behind the last item. -/
  last : Scanner

namespace Scanner

/-- The tokens from here on. -/
def tokens (s : Scanner) : Tokens :=
  match _h : s.next with
  | (.finish, s') => ⟨[], none, s'⟩
  | (.fault f, s') => ⟨[], some f, s'⟩
  | (.token t, s') => let rest := s'.tokens; { rest with list := (t, s') :: rest.list }
termination_by s.rest.length
decreasing_by exact next_rest_lt _h (by simp)

end Scanner

end TweenScript
