/-!
# Channels

The animatable properties a tween can drive. A channel has a width, the number of values that make
up one of its states, and several call names.
-/

namespace TweenScript

/-- The axes of space that a channel covers. -/
inductive Axes where
  | x
  | y
  | z
  | xy
  | xz
  | yz
  | xyz
  deriving DecidableEq, Repr

/-- How many axes there are. -/
def Axes.width : Axes → Nat
  | x | y | z => 1
  | xy | xz | yz => 2
  | xyz => 3

/-- The axes by their letters. -/
def Axes.name : Axes → String
  | x => "X"
  | y => "Y"
  | z => "Z"
  | xy => "XY"
  | xz => "XZ"
  | yz => "YZ"
  | xyz => "XYZ"

/-- An animatable property. -/
inductive Channel where
  | alpha
  | color
  | colorAndAlpha
  | fillAmount
  | position (axes : Axes)
  | rotation (axes : Axes)
  | scale (axes : Axes)
  deriving DecidableEq, Repr

namespace Channel

/-- The number of values in one state of the channel. -/
def width : Channel → Nat
  | alpha | fillAmount => 1
  | color => 3
  | colorAndAlpha => 4
  | position axes | rotation axes | scale axes => axes.width

/-- The full name. -/
def name : Channel → String
  | alpha => "Alpha"
  | color => "Color"
  | colorAndAlpha => "ColorAndAlpha"
  | fillAmount => "FillAmount"
  | position axes => "Position" ++ axes.name
  | rotation axes => "Rotation" ++ axes.name
  | scale axes => "Scale" ++ axes.name

/-- Every call name with its channel, short and long names side by side. -/
def table : List (String × Channel) := [
  ("A", alpha), ("Alpha", alpha),
  ("C", color), ("Color", color),
  ("CA", colorAndAlpha), ("ColorAndAlpha", colorAndAlpha),
  ("FillAmount", fillAmount),
  ("P", position .xy), ("Position", position .xy),
  ("P3", position .xyz), ("Position3D", position .xyz),
  ("X", position .x), ("PositionX", position .x),
  ("Y", position .y), ("PositionY", position .y),
  ("Z", position .z), ("PositionZ", position .z),
  ("XY", position .xy), ("PositionXY", position .xy),
  ("XZ", position .xz), ("PositionXZ", position .xz),
  ("YZ", position .yz), ("PositionYZ", position .yz),
  ("XYZ", position .xyz), ("PositionXYZ", position .xyz),
  ("R", rotation .z), ("Rotation", rotation .z),
  ("R3", rotation .xyz), ("Rotation3D", rotation .xyz),
  ("RX", rotation .x), ("RotationX", rotation .x),
  ("RY", rotation .y), ("RotationY", rotation .y),
  ("RZ", rotation .z), ("RotationZ", rotation .z),
  ("RXY", rotation .xy), ("RotationXY", rotation .xy),
  ("RXZ", rotation .xz), ("RotationXZ", rotation .xz),
  ("RYZ", rotation .yz), ("RotationYZ", rotation .yz),
  ("RXYZ", rotation .xyz), ("RotationXYZ", rotation .xyz),
  ("S", scale .xy), ("Scale", scale .xy),
  ("S3", scale .xyz), ("Scale3D", scale .xyz),
  ("SX", scale .x), ("ScaleX", scale .x),
  ("SY", scale .y), ("ScaleY", scale .y),
  ("SZ", scale .z), ("ScaleZ", scale .z),
  ("SXY", scale .xy), ("ScaleXY", scale .xy),
  ("SXZ", scale .xz), ("ScaleXZ", scale .xz),
  ("SYZ", scale .yz), ("ScaleYZ", scale .yz),
  ("SXYZ", scale .xyz), ("ScaleXYZ", scale .xyz)]

/-- Every call name. -/
def names : List String :=
  table.map (·.1)

/-- The channel with the call name given. -/
def named? (name : String) : Option Channel :=
  table.lookup name

end Channel

end TweenScript
