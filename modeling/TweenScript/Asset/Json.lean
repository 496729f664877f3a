import TweenScript.Asset
import TweenScript.Json.Number
import TweenScript.Json.Reader
import TweenScript.Json.Writer

/-!
# Assets as JSON

An asset is written as an object. It is read from an object, whose members may come in any order
among others that nobody asked for, or from an array of its fields in order; the same holds of each
entry of its tables. A field that is asked for stands at most once.
-/

namespace TweenScript

namespace Json

/-- The keys and values of an object whose keys are all texts. -/
def members? (members : List Member) : Option (List (String × Json)) :=
  members.mapM fun m => m.key.map (·, m.value)

/-- The value of a field, `none` inside if it is missing. A field that is repeated is no field. -/
def field? (members : List (String × Json)) (key : String) : Option (Option Json) :=
  match members.filter fun m => m.1 == key with
  | [] => some none
  | [m] => some (some m.2)
  | _ => none

/-- The fields of an object or of an array, in the order of `keys`. -/
def fields? (keys : List String) : Json → Option (List (Option Json))
  | .object members => do
    let members ← members? members
    keys.mapM (field? members)
  | .array items => if items.length = keys.length then some (items.map some) else none
  | _ => none

/-- The text that a value is. -/
def text? : Json → Option String
  | .string text => text
  | _ => none

/-- The floating-point number that a value is. -/
def float? : Json → Option Float
  | .number n => n.value?
  | _ => none

/-- The items of an array. -/
def items? : Json → Option (List Json)
  | .array items => some items
  | _ => none

end Json

namespace Asset

/-! ## Writing -/

/-- An asset as a JSON value. -/
def toJson (a : Asset) : Json :=
  .ofMembers [
    ("object_maps", .array (a.paths.map fun e =>
      .ofMembers [("name", .ofString e.1), ("path", .ofString e.2)])),
    ("variables", .array (a.values.map fun e =>
      .ofMembers [("name", .ofString e.1), ("value", .ofFloat e.2)])),
    ("expression", .ofString a.expression)]

/-- The JSON text of an asset. -/
def toText (a : Asset) : String :=
  a.toJson.pretty

/-! ## Reading -/

/-- An entry of a table: a name, and a value under `key` that `read` accepts. -/
def readEntry {α : Type} (key : String) (read : Json → Option α) (j : Json) :
    Option (String × α) := do
  match ← j.fields? ["name", key] with
  | [some name, some value] => return (← name.text?, ← read value)
  | _ => none

/-- The entries of a table, which may be missing. -/
def readEntries {α : Type} (key : String) (read : Json → Option α) :
    Option Json → Option (List (String × α))
  | none => some []
  | some j => do (← j.items?).mapM (readEntry key read)

/-- The asset that a JSON value describes. -/
def ofJson? (j : Json) : Option Asset := do
  match ← j.fields? ["object_maps", "variables", "expression"] with
  | [paths, values, some expression] =>
    return {
      paths := ← readEntries "path" Json.text? paths
      values := ← readEntries "value" Json.float? values
      expression := ← expression.text? }
  | _ => none

/-- The asset that a JSON text describes. -/
def ofText (text : String) : Except Fault Asset :=
  match Json.read? text >>= ofJson? with
  | some a => .ok a
  | none => .error (.asset .notJson)

end Asset

end TweenScript
