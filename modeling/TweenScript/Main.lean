import TweenScript.Command.Outcome

/-!
# The program

Reads the files that commands name, and hands over texts and exit code.
-/

namespace TweenScript

/-- What the system says about an error. -/
def systemReason : IO.Error → String
  | .noFileOrDirectory _ code details | .permissionDenied _ code details
  | .inappropriateType _ code details => details ++ " (os error " ++ toString code ++ ")"
  | e => toString e

/-- The text of an open file. -/
def readHandle (file : IO.FS.Handle) : IO (Except FileFault String) := do
  try return .ok (← file.readToEnd)
  catch _ => return .error .unreadable

/-- The text of a file. -/
def readTextFile (path : String) : IO (Except FileFault String) := do
  try readHandle (← IO.FS.Handle.mk path .read)
  catch e => return .error (.unopened (systemReason e))

end TweenScript

def main (args : List String) : IO UInt32 := do
  let outcome ← TweenScript.runArguments TweenScript.readTextFile args
  IO.print outcome.output
  IO.eprint outcome.messages
  return UInt32.ofNat outcome.exitCode
