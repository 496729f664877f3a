import TweenScript.Json.Writer
import TweenScript.Recorder

/-!
# Traces

A trace is the log of a recorder as JSON: the tweens, the objects switched, the callbacks and the
events.
-/

namespace TweenScript

/-- What is known of a tween as a JSON value. -/
def TweenRecord.toJson (t : TweenRecord) : Json :=
  .ofMembers [
    ("id", .ofNat t.id),
    ("object", .ofString t.object),
    ("channel", .ofString t.channel.name),
    ("duration", .ofFloat t.duration),
    ("to", .ofOption (fun vs => .array (vs.map .ofFloat)) t.target),
    ("from", .ofOption (fun s => .ofMembers [
      ("values", .array (s.values.map .ofFloat)),
      ("relative", .bool s.relative)]) t.start),
    ("delay", .ofFloat t.delay),
    ("animate", .bool t.animate),
    ("ease", .ofOption (fun e => .ofString e.name) t.ease),
    ("continuations", .ofNat t.continuations),
    ("completed", .bool t.completed)]

/-- An event as a JSON value. -/
def Event.toJson : Event → Json
  | tween id => .ofMembers [("event", .ofString "tween"), ("id", .ofNat id)]
  | setActive object active =>
    .ofMembers [
      ("event", .ofString "set_active"), ("object", .ofString object), ("active", .bool active)]
  | callback => .ofMembers [("event", .ofString "callback")]
  | completed id => .ofMembers [("event", .ofString "completed"), ("id", .ofNat id)]

namespace Recorder

/-- The trace of a recorder. -/
def trace (r : Recorder) : Json :=
  .ofMembers [
    ("tweens", .array (r.tweens.toList.map TweenRecord.toJson)),
    ("active", .ofMembers (r.active.toList.map fun e => (e.1, .bool e.2))),
    ("callbacks", .ofNat r.callbacks),
    ("events", .array (r.events.toList.map Event.toJson))]

/-- The trace of a recorder as JSON text. -/
def traceText (r : Recorder) : String :=
  r.trace.pretty

end Recorder

end TweenScript
