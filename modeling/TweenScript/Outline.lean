/-!
# Outlines

An outline shows how a value is built: what a part holds stands between brackets, each item on a line
of its own, four blanks further in and followed by a comma.
-/

namespace TweenScript

/-- A tree of parts with names. -/
inductive Outline where
  | leaf (text : String)
  | field (name : String) (value : Outline)
  | group (opening : String) (items : List Outline) (closing : String)

namespace Outline

/-- A list of items. -/
def list (items : List Outline) : Outline :=
  .group "[" items "]"

/-- A part around another one. -/
def wrapped (name : String) (item : Outline) : Outline :=
  .group (name ++ "(") [item] ")"

/-- A part with fields. -/
def record (name : String) (fields : List Outline) : Outline :=
  .group (name ++ " \x7b") fields "\x7d"

/-- A text in quotes, for texts in which nothing has to be escaped. -/
def quoted (text : String) : Outline :=
  .leaf ("\"" ++ text ++ "\"")

/-- A new line at depth `depth`. -/
def newline (depth : Nat) : String :=
  "\n".pushn ' ' (4 * depth)

mutual

/-- The text `before` and an outline at depth `depth` after it. -/
def write (depth : Nat) (before : String) : Outline → String
  | leaf text => before ++ text
  | field name value => value.write depth (before ++ name ++ ": ")
  | group opening items closing =>
    let inside := writeItems (depth + 1) (before ++ opening) items
    if items.isEmpty then inside ++ closing else inside ++ newline depth ++ closing

/-- The text `before` and items at depth `depth` after it. -/
def writeItems (depth : Nat) (before : String) : List Outline → String
  | [] => before
  | item :: items => writeItems depth (item.write depth (before ++ newline depth) ++ ",") items

end

/-- The text of an outline. -/
def text (o : Outline) : String :=
  o.write 0 ""

end Outline

end TweenScript
