import TweenScript.Asset.Json
import TweenScript.Command.Arguments
import TweenScript.Program.Outline
import TweenScript.Recorder.Completion
import TweenScript.Recorder.Trace

/-!
# Outcomes

What a run of the program leaves behind. A command that fails says why on standard error; what it
showed before stays shown.
-/

namespace TweenScript

/-! ## Failures -/

/-- Why a file gives no text. -/
inductive FileFault where
  /-- The file cannot be opened. -/
  | unopened (reason : String)
  | unreadable
  deriving DecidableEq, Repr

/-- Why a command fails. -/
inductive Failure where
  | unopened (path reason : String)
  /-- A file holds no asset. -/
  | unreadable
  | fault (f : Fault)
  /-- The asset that a file holds does not run. -/
  | stopped (path : String) (f : Fault)
  deriving DecidableEq

namespace Failure

/-- The wording of a failure. -/
def message : Failure → String
  | unopened path _ => "open asset '" ++ path ++ "'"
  | unreadable => "parse asset JSON"
  | fault f => f.message
  | stopped path _ => "run '" ++ path ++ "'"

/-- The wording of what is behind a failure. -/
def cause? : Failure → Option String
  | unopened _ reason => some reason
  | stopped _ f => some f.message
  | unreadable | fault _ => none

/-- A text with every line four blanks further in. -/
def indent (text : String) : String :=
  let lineStart := List.replicate 4 ' '
  String.ofList (lineStart ++ text.toList.flatMap fun c => if c = '\n' then c :: lineStart else [c])

/-- The report of a failure. -/
def report (f : Failure) : String :=
  let causes := match f.cause? with
    | none => ""
    | some cause => "\n\nCaused by:\n" ++ indent cause
  "Error: " ++ f.message ++ causes ++ "\n"

end Failure

/-! ## Outcomes -/

/-- What a run leaves behind. -/
structure Outcome where
  exitCode : Nat := 0
  /-- The text for standard output. -/
  output : String := ""
  /-- The text for standard error. -/
  messages : String := ""
  deriving DecidableEq, Repr

namespace Outcome

/-- The outcome of a failure after `output` was shown. -/
def failed (output : String) (f : Failure) : Outcome :=
  ⟨1, output, f.report⟩

/-- The outcome of what shows all it has to show at its end. -/
def ofExcept : Except Failure Outcome → Outcome
  | .ok o => o
  | .error f => failed "" f

/-- The outcome of arguments that make no request. -/
def ofUsageFault (f : UsageFault) : Outcome :=
  ⟨2, "", "error: " ++ f.message ++ "\n\nFor more information, try '--help'.\n"⟩

end Outcome

/-! ## Commands -/

/-- The texts of files, or what is wrong with them. -/
abbrev Files (m : Type → Type) : Type :=
  String → m (Except FileFault String)

namespace Outcome

variable {m : Type → Type} [Monad m]

/-- The asset that a file holds. -/
def readAsset (files : Files m) (path : String) : ExceptT Failure m Asset := do
  match ← (files path : m (Except FileFault String)) with
  | .error (.unopened reason) => throw (.unopened path reason)
  | .error .unreadable => throw .unreadable
  | .ok text =>
    match Asset.ofText text with
    | .ok a => return a
    | .error _ => throw .unreadable

/-- What may fail by a fault. -/
def orFail {α : Type} : Except Fault α → ExceptT Failure m α
  | .ok a => return a
  | .error f => throw (.fault f)

/-- The script of a source. An asset is checked before its script counts. -/
def readScript (files : Files m) : Source → ExceptT Failure m String
  | .script text => return text
  | .asset path => do
    let a ← readAsset files path
    orFail a.validate
    return a.expression

/-- Says that a script is one. -/
def ofCheck (files : Files m) (source : Source) : ExceptT Failure m Outcome := do
  let _ ← orFail (parseProgram (← readScript files source))
  return { messages := "ok\n" }

/-- Lists tokens up to the first fault. -/
def ofTokens (text : String) : Outcome :=
  let ts := (Scanner.ofString text).tokens
  let output := String.join (ts.list.map fun t => t.1.describe ++ "\n")
  match ts.fault with
  | none => { output }
  | some f => .failed output (.fault f)

/-- Shows the tree of a script. -/
def ofTree (files : Files m) (source : Source) : ExceptT Failure m Outcome := do
  let program ← orFail (parseProgram (← readScript files source))
  return { output := program.outline.text ++ "\n" }

/-- Shows both views of an expression. Of several values for a variable the last counts. -/
def ofEval (text : String) (bindings : List (String × Float)) : ExceptT Failure m Outcome := do
  let e ← orFail (parseExpression text)
  let recorder : Recorder := bindings.foldl (fun r v => r.setVariable v.1 v.2) {}
  let context := Recorder.context []
  let number := ((context.number e).run recorder).1
  let truth := ((context.truth e).run recorder).1
  return {
    output := "number: " ++ Style.plain.text number ++ "\nbool:   " ++ toString truth ++ "\n" }

/-- Runs an asset and shows the trace. -/
def ofRun (files : Files m) (path : String) (complete : Bool) : ExceptT Failure m Outcome := do
  let a ← readAsset files path
  match (a.run (Recorder.context [])).run.run {} with
  | (.error f, _) => throw (.stopped path f)
  | (.ok _, recorder) =>
    if complete then
      let (count, recorder) := Recorder.completeAll.run.run recorder
      let messages := "completed " ++ toString (← orFail count) ++ " tweens\n"
      return { output := recorder.traceText ++ "\n", messages }
    else
      return { output := recorder.traceText ++ "\n" }

end Outcome

namespace Command

/-- The outcome of a command. -/
def outcome {m : Type → Type} [Monad m] (files : Files m) : Command → m Outcome
  | .check source => Outcome.ofExcept <$> (Outcome.ofCheck files source).run
  | .tokens text => pure (Outcome.ofTokens text)
  | .tree source => Outcome.ofExcept <$> (Outcome.ofTree files source).run
  | .eval text bindings => Outcome.ofExcept <$> (Outcome.ofEval text bindings).run
  | .run path complete => Outcome.ofExcept <$> (Outcome.ofRun files path complete).run

/-- A line that says what a command does. -/
def account : Command → String
  | .check (.asset path) => "check the asset in '" ++ path ++ "'"
  | .check (.script _) => "check a script"
  | .tokens _ => "scan a text"
  | .tree (.asset path) => "parse the asset in '" ++ path ++ "'"
  | .tree (.script _) => "parse a script"
  | .eval _ bindings => "evaluate an expression with " ++ toString bindings.length ++ " bindings"
  | .run path _ => "run the asset in '" ++ path ++ "'"

end Command

/-! ## Requests -/

/-- The answer to a request for help. -/
def helpText : String :=
  "Usage: animexpr [--verbose] <COMMAND>\n\n" ++
  "Commands:\n" ++
  "  check   Compile an expression and report the first error\n" ++
  "  tokens  Print the token stream of an expression\n" ++
  "  ast     Print the parsed tree\n" ++
  "  eval    Evaluate a single expression and print its number and boolean views\n" ++
  "  run     Run an asset against a recording host and print the trace as JSON\n" ++
  "  help    Print this message\n\n" ++
  "Options:\n" ++
  "      --in <FILE>         Input asset JSON (check, ast, run)\n" ++
  "      --expr <SOURCE>     Expression source (check, tokens, ast, eval)\n" ++
  "      --var <NAME=VALUE>  Variable binding, may be repeated (eval)\n" ++
  "      --complete          Complete every playing tween after evaluation (run)\n" ++
  "      --verbose           Say on standard error what is done\n" ++
  "  -h, --help              Print help\n" ++
  "  -V, --version           Print version\n"

/-- The answer to a request for the version. -/
def versionText : String :=
  "animexpr 0.1.0\n"

namespace Request

variable {m : Type → Type} [Monad m]

/-- The outcome of a request. A verbose one says on standard error what it does before it does it. -/
def outcome (files : Files m) : Request → m Outcome
  | .help => pure { output := helpText }
  | .version => pure { output := versionText }
  | .perform false command => command.outcome files
  | .perform true command => do
    let o ← command.outcome files
    return { o with messages := command.account ++ "\n" ++ o.messages }

end Request

/-- The outcome of a run with arguments. -/
def runArguments {m : Type → Type} [Monad m] (files : Files m) (args : List String) : m Outcome :=
  match Request.ofArguments args with
  | .ok request => request.outcome files
  | .error f => pure (.ofUsageFault f)

end TweenScript
