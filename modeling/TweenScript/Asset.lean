import TweenScript.Evaluation
import TweenScript.Program.Parser
import TweenScript.Text

/-!
# Assets

An asset is a script with the names it uses. It is checked, parsed and only then run, so that an
asset that is no good leaves the host alone; its scope is the asset's own table inside the context
it is run in.
-/

namespace TweenScript

/-- A script together with its name table. -/
structure Asset extends NameTable where
  expression : String
  deriving DecidableEq

namespace Asset

/-- Whether there is nothing to see in a name. -/
def isBlankName (name : String) : Bool :=
  name.toList.all isBlank

/-- Checks the names for objects, those in `seen` being taken. -/
def checkPaths (seen : List String) : List (String × String) → Except Fault Unit
  | [] => .ok ()
  | (name, _) :: rest =>
    if isBlankName name then .error (.asset .blankPathName)
    else if name ∈ seen then .error (.asset (.duplicatePathName name))
    else checkPaths (name :: seen) rest

/-- Checks the variables, the names in `seen` being taken. -/
def checkVariables (seen : List String) : List (String × Float) → Except Fault Unit
  | [] => .ok ()
  | (name, value) :: rest =>
    if isBlankName name then .error (.asset .blankVariableName)
    else if name ∈ seen then .error (.asset (.duplicateVariableName name))
    else if !value.isFinite then .error (.asset (.notFinite name))
    else checkVariables (name :: seen) rest

/-- Checks that the names of each kind are visible and different, and the values finite. -/
def validate (a : Asset) : Except Fault Unit := do
  checkPaths [] a.paths
  checkVariables [] a.values

/-- The program of an asset. -/
def compile (a : Asset) : Except Fault Statement :=
  parseProgram a.expression

variable {σ ο τ : Type}

/-- Evaluates the program of an asset in its scope, without checking the asset. -/
def evaluate (c : Context σ ο τ) (a : Asset) : Action σ Unit := do
  let program ← a.compile
  program.evaluate (c.within a.toNameTable)

/-- Checks an asset and evaluates its program in its scope. -/
def run (c : Context σ ο τ) (a : Asset) : Action σ Unit := do
  a.validate
  a.evaluate c

end Asset

end TweenScript
