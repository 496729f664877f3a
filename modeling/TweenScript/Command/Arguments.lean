import TweenScript.Command
import TweenScript.Decimal.Literal
import TweenScript.Text

/-!
# Arguments

Arguments are read from left to right. The name of a command ends the options of the program and
begins its own. An option's value is attached with `=` or is the next argument, which then does not
look like an option. Everything but a binding stands at most once, except that `--verbose` may stand
once on either side of the command.
-/

namespace TweenScript

/-- Why arguments make no request. -/
inductive UsageFault where
  | missingCommand
  | unexpected (argument : String)
  | missingValue (option : String)
  | needlessValue (option : String)
  | repeated (option : String)
  | missingOption (option : String)
  | conflict (option other : String)
  /-- The value of `--var` has no `=`, or no number behind it. -/
  | badBinding (text : String)
  deriving DecidableEq, Repr

/-- The wording of a usage fault. -/
def UsageFault.message : UsageFault → String
  | missingCommand => "a command is required"
  | unexpected argument => "unexpected argument '" ++ argument ++ "'"
  | missingValue option => "a value is required for '" ++ option ++ "'"
  | needlessValue option => "'" ++ option ++ "' takes no value"
  | repeated option => "'" ++ option ++ "' cannot be used multiple times"
  | missingOption option => "'" ++ option ++ "' is required"
  | conflict option other => "'" ++ option ++ "' cannot be used with '" ++ other ++ "'"
  | badBinding text => "expected name=value, got '" ++ text ++ "'"

/-! ## Arguments by their look -/

/-- An argument as it looks. -/
inductive Argument where
  /-- Two hyphens: no option stands behind it. -/
  | separator
  | long (name : String) (value : Option String)
  /-- A hyphen and letters. -/
  | short (letters : List Char)
  /-- Anything else, a hyphen by itself included. -/
  | word (text : String)
  deriving DecidableEq, Repr

/-- The text before the first `=` and the text behind it, if there is one. -/
def splitAtEquals (cs : List Char) : String × Option String :=
  match cs.dropWhile (· ≠ '=') with
  | _ :: value => (String.ofList (cs.takeWhile (· ≠ '=')), some (String.ofList value))
  | [] => (String.ofList cs, none)

/-- The look of an argument. -/
def Argument.ofString (text : String) : Argument :=
  match text.toList with
  | ['-', '-'] => .separator
  | '-' :: '-' :: cs => let (name, value) := splitAtEquals cs; .long name value
  | '-' :: c :: cs => .short (c :: cs)
  | _ => .word text

/-- Whether an argument can be the value of the option before it. -/
def Argument.isWord : Argument → Bool
  | word _ => true
  | _ => false

/-! ## Options of commands -/

/-- The commands by their names. -/
inductive Verb where
  | check
  | tokens
  | tree
  | eval
  | run
  deriving DecidableEq, Repr

/-- The command of a name. -/
def Verb.named? : String → Option Verb
  | "check" => some check
  | "tokens" => some tokens
  | "ast" => some tree
  | "eval" => some eval
  | "run" => some run
  | _ => none

/-- The options that take no value. -/
inductive Flag where
  | help
  | verbose
  | complete
  deriving DecidableEq, Repr

/-- The options that take a value. -/
inductive Parameter where
  | path
  | script
  | binding
  deriving DecidableEq, Repr

/-- The flag of a name, among those of a command. -/
def Verb.flag? : Verb → String → Option Flag
  | _, "help" => some .help
  | _, "verbose" => some .verbose
  | run, "complete" => some .complete
  | _, _ => none

/-- The parameter of a name, among those of a command. -/
def Verb.parameter? : Verb → String → Option Parameter
  | check, "in" | tree, "in" | run, "in" => some .path
  | check, "expr" | tree, "expr" | tokens, "expr" | eval, "expr" => some .script
  | eval, "var" => some .binding
  | _, _ => none

/-- The options of a command as far as they are known. -/
structure Options where
  help : Bool := false
  verbose : Bool := false
  complete : Bool := false
  path : Option String := none
  script : Option String := none
  bindings : List (String × Float) := []
  deriving DecidableEq

/-- The binding that a text spells: a name and a number with the first `=` between them. -/
def readBinding (text : String) : Except UsageFault (String × Float) :=
  match splitAtEquals text.toList with
  | (name, some value) =>
    match readFloat? (trim value) with
    | some v => .ok (trim name, v)
    | none => .error (.badBinding text)
  | (_, none) => .error (.badBinding text)

namespace Options

/-- Raises a flag. -/
def raise (o : Options) : Flag → Except UsageFault Options
  | .help => .ok { o with help := true }
  | .verbose => if o.verbose then .error (.repeated "--verbose") else .ok { o with verbose := true }
  | .complete =>
    if o.complete then .error (.repeated "--complete") else .ok { o with complete := true }

/-- Gives a parameter a value. A path is not empty. -/
def assign (o : Options) (value : String) : Parameter → Except UsageFault Options
  | .path =>
    if o.path.isSome then .error (.repeated "--in")
    else if value = "" then .error (.missingValue "--in")
    else .ok { o with path := some value }
  | .script =>
    if o.script.isSome then .error (.repeated "--expr") else .ok { o with script := some value }
  | .binding => do
    let binding ← readBinding value
    return { o with bindings := o.bindings ++ [binding] }

/-- The options that the arguments of a command give. What stands behind a call for help is not
looked at. -/
def read (verb : Verb) (o : Options) : List String → Except UsageFault Options
  | [] => .ok o
  | arg :: args =>
    match Argument.ofString arg with
    | .word _ => .error (.unexpected arg)
    | .short letters =>
      if letters.head? = some 'h' then o.raise .help else .error (.unexpected arg)
    | .separator =>
      match args with
      | [] => .ok o
      | arg :: _ => .error (.unexpected arg)
    | .long name value =>
      match verb.flag? name, verb.parameter? name, value, args with
      | some .help, _, none, _ => o.raise .help
      | some flag, _, none, args => do read verb (← o.raise flag) args
      | some _, _, some _, _ => .error (.needlessValue arg)
      | none, some parameter, some text, args => do read verb (← o.assign text parameter) args
      | none, some parameter, none, text :: args =>
        if (Argument.ofString text).isWord then do read verb (← o.assign text parameter) args
        else .error (.missingValue arg)
      | none, some _, none, [] => .error (.missingValue arg)
      | none, none, _, _ => .error (.unexpected arg)

/-- The one source that was named. -/
def source (o : Options) : Except UsageFault Source :=
  match o.path, o.script with
  | some path, none => .ok (.asset path)
  | none, some text => .ok (.script text)
  | some _, some _ => .error (.conflict "--in" "--expr")
  | none, none => .error (.missingOption "--in")

/-- The path that was named. -/
def requiredPath (o : Options) : Except UsageFault String :=
  match o.path with
  | some path => .ok path
  | none => .error (.missingOption "--in")

/-- The script that was named. -/
def requiredScript (o : Options) : Except UsageFault String :=
  match o.script with
  | some text => .ok text
  | none => .error (.missingOption "--expr")

/-- The command with these options. -/
def command (o : Options) : Verb → Except UsageFault Command
  | .check => do return .check (← o.source)
  | .tokens => do return .tokens (← o.requiredScript)
  | .tree => do return .tree (← o.source)
  | .eval => do return .eval (← o.requiredScript) o.bindings
  | .run => do return .run (← o.requiredPath) o.complete

end Options

/-! ## Requests -/

namespace Request

/-- The request for a command whose own arguments are `args`. -/
def ofVerb (verbose : Bool) (verb : Verb) (args : List String) : Except UsageFault Request := do
  let o ← Options.read verb {} args
  if o.help then return .help
  return .perform (verbose || o.verbose) (← o.command verb)

/-- The request for help with the commands named. -/
def ofTopics : List String → Except UsageFault Request
  | [] => .ok .help
  | topic :: topics =>
    if topic ≠ "help" ∧ (Verb.named? topic).isNone then .error (.unexpected topic)
    else
      match topics with
      | [] => .ok .help
      | topic :: _ => .error (.unexpected topic)

/-- The request that arguments make, `--verbose` being among those before them or not. -/
def read (verbose : Bool) : List String → Except UsageFault Request
  | [] => .error .missingCommand
  | arg :: args =>
    match Argument.ofString arg with
    | .long "verbose" none => if verbose then .error (.repeated arg) else read true args
    | .long "help" none | .short ('h' :: _) => .ok .help
    | .long "version" none | .short ('V' :: _) => .ok .version
    | .word "help" => ofTopics args
    | .word name =>
      match Verb.named? name with
      | some verb => ofVerb verbose verb args
      | none => .error (.unexpected arg)
    | _ => .error (.unexpected arg)

/-- The request that arguments make. -/
def ofArguments (args : List String) : Except UsageFault Request :=
  read false args

end Request

end TweenScript
