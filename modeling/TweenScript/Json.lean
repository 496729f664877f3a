import TweenScript.Decimal.Style

/-!
# JSON values

What a JSON text says. Members of an object keep their order and may repeat a key. A string whose
escapes leave a surrogate without its partner is a string without a text.
-/

namespace TweenScript

mutual

/-- A JSON value. -/
inductive Json where
  | null
  | bool (b : Bool)
  | number (n : Numeral)
  | string (text : Option String)
  | array (items : List Json)
  | object (members : List Member)

/-- A member of an object. -/
structure Member where
  key : Option String
  value : Json

end

namespace Json

/-- A text as a JSON value. -/
def ofString (s : String) : Json :=
  .string (some s)

/-- A natural number as a JSON value. -/
def ofNat (n : Nat) : Json :=
  .number (.ofNat n)

/-- A floating-point number as a JSON value: JSON has neither infinities nor the number that is
none. -/
def ofFloat (v : Float) : Json :=
  if v.isFinite then .number (Style.json.numeral v) else .null

/-- What may be missing as a JSON value. -/
def ofOption {α : Type} (f : α → Json) : Option α → Json
  | none => .null
  | some a => f a

/-- Members with their keys in order, as an object. -/
def ofMembers (members : List (String × Json)) : Json :=
  .object (members.map fun m => ⟨some m.1, m.2⟩)

end Json

end TweenScript
