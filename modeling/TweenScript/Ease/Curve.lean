import TweenScript.Ease

/-!
# Easing curves

`Ease.apply` maps the progress of a tween to the progress of its values. Every curve runs from `0`
at `0` to `1` at `1`, and progress outside that range stays at its nearer end. A mode places copies
of the family's curve, or of the curve turned around.
-/

namespace TweenScript

/-- The ratio of a circle's circumference to its diameter. -/
def circleRatio : Float := 3.141592653589793

/-- `x`, or zero where `x` is not above it. -/
def positivePart (x : Float) : Float :=
  if 0 < x then x else 0

/-- A ball dropped at `t = 1` and followed back in time: four arcs of one parabola. -/
def bounceOut (t : Float) : Float :=
  let arc (centre lift : Float) : Float :=
    let u := t - centre / 2.75
    7.5625 * u * u + lift
  if t < 1 / 2.75 then 7.5625 * t * t
  else if t < 2 / 2.75 then arc 1.5 0.75
  else if t < 2.5 / 2.75 then arc 2.25 0.9375
  else arc 2.625 0.984375

/-- An oscillation that grows until `u = 0`, with a period of `0.3`. -/
def spring (u : Float) : Float :=
  -(Float.pow 2 (10 * u)) * ((u - 0.3 / 4) * (2 * circleRatio) / 0.3).sin

/-- The curve of a family that starts slowly. -/
def EaseFamily.curve (f : EaseFamily) (t : Float) : Float :=
  match f with
  | back => t * t * ((1.70158 + 1) * t - 1.70158)
  | bounce => 1 - bounceOut (1 - t)
  | circular => 1 - (positivePart (1 - t * t)).sqrt
  | cubic => t * (t * t)
  | elastic =>
    if t ≤ 0 then 0
    else if t ≥ 1 then 1
    else spring (t - 1)
  | exponential => if t ≤ 0 then 0 else Float.pow 2 (10 * (t - 1))
  | quadratic => t * t
  | quartic => (t * t) * (t * t)
  | quintic => t * ((t * t) * (t * t))
  | sine => 1 - (t * circleRatio / 2).cos

/-- The curve of a family turned around, so that it ends slowly. -/
def EaseFamily.turned (f : EaseFamily) (t : Float) : Float :=
  1 - f.curve (1 - t)

/-- The eased progress at progress `t`. -/
def Ease.apply (e : Ease) (t : Float) : Float :=
  if t ≤ 0 then 0
  else if t ≥ 1 then 1
  else
    match e.mode with
    | .into => e.family.curve t
    | .out => e.family.turned t
    | .inOut =>
      if t < 0.5 then e.family.curve (2 * t) / 2 else 1 - e.family.curve (2 - 2 * t) / 2
    | .outIn =>
      if t < 0.5 then e.family.turned (2 * t) / 2 else 0.5 + e.family.curve (2 * t - 1) / 2

end TweenScript
