/-!
# Easings

An easing is a curve family with a mode. Link names such as `EaseInOutQuad` are looked up by taking
off the first mode that fits; `InOut` and `OutIn` stand before `In` and `Out`, so the mode taken off
is the longest one.
-/

namespace TweenScript

/-- The shape of an easing curve. -/
inductive EaseFamily where
  | back
  | bounce
  | circular
  | cubic
  | elastic
  | exponential
  | quadratic
  | quartic
  | quintic
  | sine
  deriving DecidableEq, Repr

/-- The full name of a family. -/
def EaseFamily.name : EaseFamily → String
  | back => "Back"
  | bounce => "Bounce"
  | circular => "Circular"
  | cubic => "Cubic"
  | elastic => "Elastic"
  | exponential => "Exponential"
  | quadratic => "Quadratic"
  | quartic => "Quartic"
  | quintic => "Quintic"
  | sine => "Sine"

/-- Where in the range of progress the curve bends. -/
inductive EaseMode where
  | into
  | out
  | inOut
  | outIn
  deriving DecidableEq, Repr

/-- The name of a mode. -/
def EaseMode.name : EaseMode → String
  | into => "In"
  | out => "Out"
  | inOut => "InOut"
  | outIn => "OutIn"

/-- A named easing curve. -/
structure Ease where
  family : EaseFamily
  mode : EaseMode
  deriving DecidableEq, Repr

namespace Ease

/-- What every link name of an easing begins with. -/
def mark : String := "Ease"

/-- The modes by name, in the order they are tried. -/
def modes : List (String × EaseMode) :=
  [("InOut", .inOut), ("OutIn", .outIn), ("In", .into), ("Out", .out)]

/-- The families by name, the short names after the full ones. -/
def families : List (String × EaseFamily) := [
  ("Back", .back),
  ("Bounce", .bounce),
  ("Circular", .circular), ("Circ", .circular),
  ("Cubic", .cubic),
  ("Elastic", .elastic),
  ("Exponential", .exponential), ("Expo", .exponential),
  ("Quadratic", .quadratic), ("Quad", .quadratic),
  ("Quartic", .quartic), ("Quart", .quartic),
  ("Quintic", .quintic), ("Quint", .quintic),
  ("Sine", .sine)]

/-- Every link name of an easing. -/
def names : List String :=
  modes.flatMap fun m => families.map fun f => mark ++ m.1 ++ f.1

/-- The full link name. -/
def name (e : Ease) : String :=
  mark ++ e.mode.name ++ e.family.name

/-- Whether a link name claims to be that of an easing. -/
def isMarked (name : String) : Bool :=
  mark.toList.isPrefixOf name.toList

/-- The easing with the link name given. -/
def named? (name : String) : Option Ease := do
  let cs ← mark.toList.isPrefixOf? name.toList
  let (mode, cs) ← modes.findSome? fun m => (m.1.toList.isPrefixOf? cs).map (m.2, ·)
  let family ← families.lookup (String.ofList cs)
  return ⟨family, mode⟩

end Ease

end TweenScript
