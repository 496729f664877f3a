import TweenScript.Json
import TweenScript.Text

/-!
# Reading JSON

Strict JSON: no comments, no commas before a closing bracket, no control characters in strings, and
nothing but blanks around the value. Values may nest to any depth and numbers be of any size.
-/

namespace TweenScript

namespace Json

/-- What reading comes to, if the text is JSON so far. -/
abbrev Reading (α : Type) (bound : Nat) : Type :=
  Option (Parsed Char α bound)

/-- The characters that may stand between the parts of a text. -/
def isGap (c : Char) : Bool :=
  c == ' ' || c == '\t' || c == '\r' || c == '\n'

/-- The first character that is no blank, and the text after it. -/
def next? : (cs : List Char) → Reading Char cs.length
  | [] => none
  | c :: cs =>
    if isGap c then
      match next? cs with
      | none => none
      | some ⟨c, rest, h⟩ => some ⟨c, rest, by simp only [List.length_cons]; omega⟩
    else some ⟨c, cs, by simp⟩

/-! ## Strings -/

/-- The value of a digit of base sixteen. -/
def hexValue? (c : Char) : Option Nat :=
  if c.isDigit then some (c.toNat - '0'.toNat)
  else if 'a' ≤ c ∧ c ≤ 'f' then some (c.toNat - 'a'.toNat + 10)
  else if 'A' ≤ c ∧ c ≤ 'F' then some (c.toNat - 'A'.toNat + 10)
  else none

/-- The value of four digits of base sixteen. -/
def hexQuad? (a b c d : Char) : Option Nat := do
  return (((← hexValue? a) * 16 + (← hexValue? b)) * 16 + (← hexValue? c)) * 16 + (← hexValue? d)

/-- Whether a code unit is the first of a surrogate pair. -/
def isLead (n : Nat) : Bool :=
  0xD800 ≤ n && n < 0xDC00

/-- Whether a code unit is the second of a surrogate pair. -/
def isTrail (n : Nat) : Bool :=
  0xDC00 ≤ n && n < 0xE000

/-- The character of a surrogate pair. -/
def pair (lead trail : Nat) : Char :=
  Char.ofNat (0x10000 + (lead - 0xD800) * 0x400 + (trail - 0xDC00))

/-- The character that a letter after a backslash stands for. -/
def unescape? : Char → Option Char
  | '"' => some '"'
  | '\\' => some '\\'
  | '/' => some '/'
  | 'b' => some '\x08'
  | 'f' => some '\x0c'
  | 'n' => some '\n'
  | 'r' => some '\r'
  | 't' => some '\t'
  | _ => none

/-- The second half of a surrogate pair that begins with `lead`, where a text goes on with one. -/
def trail? : List Char → Option (Nat × List Char)
  | '\\' :: 'u' :: a :: b :: c :: d :: cs => do
    let n ← hexQuad? a b c d
    if isTrail n then some (n, cs) else none
  | _ => none

theorem length_lt_of_trail? {cs rest : List Char} {n : Nat} (h : trail? cs = some (n, rest)) :
    rest.length < cs.length := by
  unfold trail? at h
  split at h
  · simp only [Option.bind_eq_bind, Option.bind_eq_some_iff] at h
    obtain ⟨m, -, hm⟩ := h
    split at hm <;> cases hm
    simp only [List.length_cons]
    omega
  · cases h

/-- The rest of a string whose quote is open. -/
def readString (cs : List Char) : Reading (Option (List Char)) cs.length :=
  match cs with
  | '"' :: cs => some ⟨some [], cs, by simp⟩
  | '\\' :: 'u' :: a :: b :: c :: d :: cs => do
    let n ← hexQuad? a b c d
    if isLead n then
      match ht : trail? cs with
      | some (m, rest) =>
        have := length_lt_of_trail? ht
        let ⟨text, rest, h⟩ ← readString rest
        return ⟨text.map (pair n m :: ·), rest, by simp only [List.length_cons]; omega⟩
      | none =>
        let ⟨_, rest, h⟩ ← readString cs
        return ⟨none, rest, by simp only [List.length_cons]; omega⟩
    else
      let ⟨text, rest, h⟩ ← readString cs
      return ⟨if isTrail n then none else text.map (Char.ofNat n :: ·), rest,
        by simp only [List.length_cons]; omega⟩
  | '\\' :: e :: cs => do
    let c ← unescape? e
    let ⟨text, rest, h⟩ ← readString cs
    return ⟨text.map (c :: ·), rest, by simp only [List.length_cons]; omega⟩
  | c :: cs =>
    if c.toNat < 0x20 ∨ c = '\\' then none
    else do
      let ⟨text, rest, h⟩ ← readString cs
      return ⟨text.map (c :: ·), rest, by simp only [List.length_cons]; omega⟩
  | [] => none
termination_by cs.length
decreasing_by all_goals (simp only [List.length_cons]; omega)

/-! ## Numbers -/

/-- The digits of a whole number at the front: no zero before other digits. -/
def readWhole : List Char → Option (List Char × List Char)
  | '0' :: cs => some (['0'], cs)
  | c :: cs =>
    if c.isDigit then some (c :: cs.takeWhile Char.isDigit, cs.dropWhile Char.isDigit) else none
  | [] => none

/-- The fraction at the front, empty if there is none. -/
def readFraction : List Char → List Char × List Char
  | '.' :: cs =>
    if cs.takeWhile Char.isDigit = [] then ([], '.' :: cs)
    else (cs.takeWhile Char.isDigit, cs.dropWhile Char.isDigit)
  | cs => ([], cs)

theorem length_lt_of_readWhole {cs rest whole : List Char}
    (h : readWhole cs = some (whole, rest)) : rest.length < cs.length := by
  unfold readWhole at h
  split at h
  · cases h; simp
  · rename_i c cs _
    split at h <;> cases h
    have := (List.dropWhile_sublist (l := cs) Char.isDigit).length_le
    simp only [List.length_cons]
    omega
  · cases h

theorem length_readFraction_le (cs : List Char) : (readFraction cs).2.length ≤ cs.length := by
  unfold readFraction
  split
  · rename_i cs
    have := (List.dropWhile_sublist (l := cs) Char.isDigit).length_le
    split
    · exact Nat.le_refl _
    · exact Nat.le_succ_of_le this
  · exact Nat.le_refl _

theorem length_le_of_readExponent {cs rest : List Char} {e : Int}
    (h : Numeral.readExponent cs = some (e, rest)) : rest.length ≤ cs.length := by
  have digits (cs : List Char) : (cs.dropWhile Char.isDigit).length ≤ cs.length :=
    (List.dropWhile_sublist _).length_le
  unfold Numeral.readExponent at h
  split at h
  · split at h
    · simp only at h
      split at h <;> split at h <;> cases h <;> simp only [List.length_cons] <;> grind
    · cases h
  · cases h

/-- Whether a text begins with a minus sign, and the text after it. -/
def readSign : List Char → Bool × List Char
  | '-' :: cs => (true, cs)
  | cs => (false, cs)

theorem length_readSign_le (cs : List Char) : (readSign cs).2.length ≤ cs.length := by
  unfold readSign
  split <;> simp

/-- A number at the front. -/
def readNumber (cs : List Char) : Reading Json cs.length :=
  have hs := length_readSign_le cs
  match hw : readWhole (readSign cs).2 with
  | none => none
  | some (whole, rest) =>
    have hw := length_lt_of_readWhole hw
    have hf := length_readFraction_le rest
    match he : Numeral.readExponent (readFraction rest).2 with
    | none =>
      some ⟨.number ⟨(readSign cs).1, whole, (readFraction rest).1, none⟩, (readFraction rest).2,
        by omega⟩
    | some (e, rest') =>
      have he := length_le_of_readExponent he
      some ⟨.number ⟨(readSign cs).1, whole, (readFraction rest).1, some e⟩, rest', by omega⟩

/-- A value without parts at the front: a word or a number. -/
def readAtom (cs : List Char) : Reading Json cs.length :=
  match cs with
  | 'n' :: 'u' :: 'l' :: 'l' :: rest => some ⟨.null, rest, by simp only [List.length_cons]; omega⟩
  | 't' :: 'r' :: 'u' :: 'e' :: rest =>
    some ⟨.bool true, rest, by simp only [List.length_cons]; omega⟩
  | 'f' :: 'a' :: 'l' :: 's' :: 'e' :: rest =>
    some ⟨.bool false, rest, by simp only [List.length_cons]; omega⟩
  | cs => readNumber cs

/-! ## Values -/

mutual

/-- The value at the front of a text. -/
def readValue (cs : List Char) : Reading Json cs.length := do
  let ⟨c, rest, h⟩ ← next? cs
  if c = '"' then
    let ⟨text, rest, h₁⟩ ← readString rest
    return ⟨.string (text.map String.ofList), rest, by omega⟩
  else if c = '[' then
    let ⟨items, rest, h₁⟩ ← readArray rest
    return ⟨.array items, rest, by omega⟩
  else if c = '{' then
    let ⟨members, rest, h₁⟩ ← readObject rest
    return ⟨.object members, rest, by omega⟩
  else
    let ⟨j, rest, h₁⟩ ← readAtom (c :: rest)
    return ⟨j, rest, by simp only [List.length_cons] at h₁; omega⟩
termination_by 3 * cs.length
decreasing_by all_goals omega

/-- The items of an array whose bracket is open, and the closing bracket. -/
def readArray (cs : List Char) : Reading (List Json) cs.length := do
  let ⟨c, rest, h⟩ ← next? cs
  if c = ']' then return ⟨[], rest, h⟩ else readItems cs
termination_by 3 * cs.length + 2
decreasing_by all_goals omega

/-- One item or more, and the closing bracket. -/
def readItems (cs : List Char) : Reading (List Json) cs.length := do
  let ⟨item, rest, h₁⟩ ← readValue cs
  let ⟨c, rest, h₂⟩ ← next? rest
  if c = ',' then
    let ⟨items, rest, h₃⟩ ← readItems rest
    return ⟨item :: items, rest, by omega⟩
  else if c = ']' then return ⟨[item], rest, by omega⟩
  else none
termination_by 3 * cs.length + 1
decreasing_by all_goals omega

/-- The members of an object whose brace is open, and the closing brace. -/
def readObject (cs : List Char) : Reading (List Member) cs.length := do
  let ⟨c, rest, h⟩ ← next? cs
  if c = '}' then return ⟨[], rest, h⟩ else readMembers cs
termination_by 3 * cs.length + 2
decreasing_by all_goals omega

/-- One member or more, and the closing brace. -/
def readMembers (cs : List Char) : Reading (List Member) cs.length := do
  let ⟨q, rest, h₁⟩ ← next? cs
  if q ≠ '"' then none
  let ⟨key, rest, h₂⟩ ← readString rest
  let ⟨c, rest, h₃⟩ ← next? rest
  if c ≠ ':' then none
  let ⟨value, rest, h₄⟩ ← readValue rest
  let member : Member := ⟨key.map String.ofList, value⟩
  let ⟨c, rest, h₅⟩ ← next? rest
  if c = ',' then
    let ⟨members, rest, h₆⟩ ← readMembers rest
    return ⟨member :: members, rest, by omega⟩
  else if c = '}' then return ⟨[member], rest, by omega⟩
  else none
termination_by 3 * cs.length + 1
decreasing_by all_goals omega

end

/-- The value that a whole text spells, if it is JSON. -/
def read? (text : String) : Option Json := do
  let ⟨j, rest, _⟩ ← readValue text.toList
  match next? rest with
  | none => return j
  | some _ => none

end Json

end TweenScript
