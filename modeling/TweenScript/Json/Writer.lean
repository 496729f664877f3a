import TweenScript.Json

/-!
# Writing JSON

Every item and every member stands on a line of its own, two blanks further in than what holds it.
Strings escape quotes, backslashes and control characters and nothing else.
-/

namespace TweenScript

namespace Json

/-- A digit of base sixteen. -/
def hexDigit (n : Nat) : Char :=
  Nat.digitChar n

/-- A character inside quotes. -/
def escape (c : Char) : List Char :=
  if c = '"' then ['\\', '"']
  else if c = '\\' then ['\\', '\\']
  else if c = '\n' then ['\\', 'n']
  else if c = '\r' then ['\\', 'r']
  else if c = '\t' then ['\\', 't']
  else if c = '\x08' then ['\\', 'b']
  else if c = '\x0c' then ['\\', 'f']
  else if c.toNat < 0x20 then
    ['\\', 'u', '0', '0', hexDigit (c.toNat / 16), hexDigit (c.toNat % 16)]
  else [c]

/-- A string in quotes. -/
def quote (cs : List Char) : List Char :=
  '"' :: cs.flatMap escape ++ ['"']

/-- A new line at depth `depth`. -/
def newline (depth : Nat) : List Char :=
  '\n' :: List.replicate (2 * depth) ' '

/-- The text of a string; one without a text is written empty. -/
def quoteText (text : Option String) : List Char :=
  quote (text.getD "").toList

end Json

mutual

/-- The text of a value at depth `depth`. -/
def Json.write (depth : Nat) : Json → List Char
  | .null => "null".toList
  | .bool true => "true".toList
  | .bool false => "false".toList
  | .number n => n.text "+"
  | .string text => Json.quoteText text
  | .array [] => ['[', ']']
  | .array (item :: items) =>
    '[' :: Json.newline (depth + 1) ++ item.write (depth + 1) ++ Json.writeItems (depth + 1) items ++
      Json.newline depth ++ [']']
  | .object [] => ['{', '}']
  | .object (member :: members) =>
    '{' :: Json.newline (depth + 1) ++ member.write (depth + 1) ++ Json.writeMembers (depth + 1) members ++
      Json.newline depth ++ ['}']

/-- The text of the items after the first. -/
def Json.writeItems (depth : Nat) : List Json → List Char
  | [] => []
  | item :: items => ',' :: Json.newline depth ++ item.write depth ++ Json.writeItems depth items

/-- The text of the members after the first. -/
def Json.writeMembers (depth : Nat) : List Member → List Char
  | [] => []
  | member :: members => ',' :: Json.newline depth ++ member.write depth ++ Json.writeMembers depth members

/-- The text of a member. -/
def Member.write (depth : Nat) : Member → List Char
  | ⟨key, value⟩ => Json.quoteText key ++ [':', ' '] ++ value.write depth

end

/-- The text of a value. -/
def Json.pretty (j : Json) : String :=
  String.ofList (j.write 0)

end TweenScript
