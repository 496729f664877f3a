import TweenScript.Proofs.Dialogue

/-!
# Parsers with a token ahead

A parser at work is a scanner and the token ahead of it. Its routines call each other, look at the token
ahead, take it and put it back, and replace it by the next one. A routine that fails leaves everything as it
is at that moment: the token ahead may be taken then, or one that a fault has not replaced.

Nothing is said here of the depth of calls, and a routine may not return; it always does
(`Routine.perform_returns`). Each routine leaves a note of its visit, which no routine looks at.
-/

namespace TweenScript

/-- The routines of a parser, and the turns of its loops. -/
inductive Routine where
  | statement
  | block
  /-- A condition and its body. -/
  | condition
  /-- A turn of the loop over statements, in a block or outside. -/
  | statements (inBlock : Bool)
  | expr
  | operand (rank : Fin (topRank + 1))
  /-- A turn of the loop over the operators of the rank above `rank`, behind `left`. -/
  | operators (rank : Fin topRank) (left : Expr)
  | unary
  | call
  | primary
  | arguments
  /-- A turn of the loop over arguments. -/
  | items
  /-- A turn of the loop over links. -/
  | links

/-- What a routine returns. -/
abbrev Routine.Result : Routine → Type
  | statement | block | condition => Statement
  | statements _ => List Statement
  | expr | operand _ | operators _ _ | unary | call | primary => Expr
  | arguments | items => List Expr
  | links => List Link

/-- A routine, and how many items had been asked for when it was called. -/
structure Caller where
  routine : Routine
  asked : Nat

/-- A note of a routine that was called, and by whom. -/
structure Visit extends Caller where
  caller : Option Caller

/-- A parser at work. -/
structure Machine where
  scanner : Scanner
  ahead : Option Token
  /-- How many items the scanner was asked for. -/
  asked : Nat
  /-- The latest visit comes first. -/
  visits : List Visit

/-- A parser of `text` that has done nothing yet. -/
def Machine.ofString (text : String) : Machine :=
  ⟨.ofString text, none, 0, []⟩

/-- What a parser does. -/
abbrev Work : Type → Type :=
  ExceptT Fault (StateT Machine Option)

namespace Work

variable {α : Type}

/-- The token ahead. -/
def ahead : Work (Option Token) := do
  return (← get).ahead

/-- Takes the token ahead away. -/
def take : Work (Option Token) :=
  modifyGet fun m => (m.ahead, { m with ahead := none })

def putBack (t : Option Token) : Work Unit :=
  modify ({ · with ahead := t })

/-- Replaces the token ahead by the next one. A fault leaves it. -/
def next : Work Unit := do
  let m ← get
  let (item, scanner) := m.scanner.next
  let m := { m with scanner, asked := m.asked + 1 }
  match item with
  | .token t => set { m with ahead := some t }
  | .finish => set { m with ahead := none }
  | .fault f =>
    set m
    throw f

/-- Fails on the line where the scanner stands. -/
def refuse (cause : GrammarCause) : Work α := do
  throw (.grammar (← get).scanner.position.line cause)

/-- Replaces the token ahead if it is the symbol `s`. -/
def expect (s : Symbol) (cause : GrammarCause) : Work Unit := do
  if (← ahead) = some (.symbol s) then
    next
  else
    refuse cause

/-- Leaves a note of a visit, and returns who calls from here on. -/
def enter (c : Routine) (caller : Option Caller) : Work (Option Caller) :=
  modifyGet fun m =>
    let self : Caller := ⟨c, m.asked⟩
    (some self, { m with visits := ⟨self, caller⟩ :: m.visits })

end Work

/-! ## Routines -/

namespace Routine

open Work

/-- Performs a routine. -/
def perform (caller : Option Caller) : (c : Routine) → Work c.Result
  | .statement => do
    let self ← enter .statement caller
    match ← ahead with
    | some (.symbol .lbrace) => block |>.perform self
    | some (.symbol .when) => condition |>.perform self
    | _ =>
      let e ← expr |>.perform self
      Work.expect .semicolon .missingSemicolon
      return .expr e
  | .block => do
    let self ← enter .block caller
    Work.expect .lbrace (.other "Missing '\x7b' of block")
    let body ← statements true |>.perform self
    Work.expect .rbrace .missingBlockEnd
    return .block body
  | .condition => do
    let self ← enter .condition caller
    Work.expect .when (.other "Missing 'if' of if statement")
    Work.expect .lparen .missingConditionStart
    let condition ← expr |>.perform self
    Work.expect .rparen .missingConditionEnd
    return .when condition (← statement |>.perform self)
  | .statements inBlock => do
    let self ← enter (.statements inBlock) caller
    match ← ahead with
    | none => return []
    | some t =>
      if inBlock ∧ t = .symbol .rbrace then
        return []
      else
        let s ← statement |>.perform self
        return s :: (← statements inBlock |>.perform self)
  | .expr => do
    let self ← enter .expr caller
    let e ← operand (Fin.last topRank) |>.perform self
    if (← ahead) = some (.symbol .question) then
      next
      let yes ← expr |>.perform self
      Work.expect .colon .missingColon
      return .conditional e yes (← expr |>.perform self)
    else
      return e
  | .operand ⟨0, h⟩ => do
    let self ← enter (.operand ⟨0, h⟩) caller
    unary |>.perform self
  | .operand ⟨rank + 1, h⟩ => do
    let self ← enter (.operand ⟨rank + 1, h⟩) caller
    let left ← operand ⟨rank, Nat.lt_of_succ_lt h⟩ |>.perform self
    operators ⟨rank, Nat.lt_of_succ_lt_succ h⟩ left |>.perform self
  | .operators rank left => do
    let self ← enter (.operators rank left) caller
    match ← ahead with
    | some (.operator op) =>
      match op.ofRank? (rank + 1) with
      | some b =>
        next
        let right ← operand rank.castSucc |>.perform self
        operators rank (.binary b left right) |>.perform self
      | none => return left
    | _ => return left
  | .unary => do
    let self ← enter .unary caller
    match ← ahead with
    | some (.operator .plus) =>
      next
      unary |>.perform self
    | some (.operator .minus) =>
      next
      return .unary .neg (← unary |>.perform self)
    | some (.operator .not) =>
      next
      return .unary .not (← unary |>.perform self)
    | _ => call |>.perform self
  | .call => do
    let self ← enter .call caller
    let callee ← primary |>.perform self
    if (← ahead) = some (.symbol .lparen) then
      match callee with
      | .variable name =>
        match Channel.named? name with
        | some channel =>
          let args ← arguments |>.perform self
          return .tween ⟨channel, name, args, ← links |>.perform self⟩
        | none =>
          if name = "Active" then
            return .setActive (← arguments |>.perform self)
          else if name = "Callback" then
            let _ ← arguments |>.perform self
            return .callback
          else
            refuse (.unknownTween name)
      | _ => refuse .badCallee
    else
      return callee
  | .primary => do
    let self ← enter .primary caller
    match ← take with
    | some (.number v) =>
      next
      return .number v
    | some (.identifier name) =>
      next
      return .variable name
    | some (.symbol .lparen) =>
      next
      let e ← expr |>.perform self
      Work.expect .rparen .missingGroupEnd
      return e
    | some (.operator op) =>
      putBack (some (.operator op))
      refuse (.misplacedOperator op)
    | some (.symbol s) =>
      putBack (some (.symbol s))
      refuse (.misplacedSymbol s)
    | none => refuse .endOfInput
  | .arguments => do
    let self ← enter .arguments caller
    Work.expect .lparen (.other "Missing '(' of arguments")
    let args ← if (← ahead) = some (.symbol .rparen) then pure [] else items |>.perform self
    Work.expect .rparen .missingArgumentsEnd
    return args
  | .items => do
    let self ← enter .items caller
    let e ← expr |>.perform self
    if (← ahead) = some (.symbol .comma) then
      next
      return e :: (← items |>.perform self)
    else
      return [e]
  | .links => do
    let self ← enter .links caller
    if (← ahead) = some (.symbol .dot) then
      next
      match ← take with
      | some (.identifier name) =>
        next
        if (← ahead) = some (.symbol .lparen) then
          let link ← (if name = "Then" then do
              next
              let body ← statement |>.perform self
              Work.expect .rparen .missingThenEnd
              return .andThen body
            else
              match Link.named name with
              | .ok make => return make (← arguments |>.perform self)
              | .error cause => refuse cause : Work Link)
          return link :: (← links |>.perform self)
        else
          refuse .missingLinkArguments
      | other =>
        putBack other
        refuse .badLinkName
    else
      return []
partial_fixpoint

end Routine

namespace Work

/-! ## Whole texts -/

/-- Begins with the text from its front. The token ahead stays until there is another one. -/
def restart : Work Unit := do
  modify fun m => { m with scanner := m.scanner.rewind }
  next

/-- Reads the whole text. -/
def parse : (mode : ParseMode) → Work mode.Tree
  | .program => do
    restart
    return Statement.ofList (← (Routine.statements false).perform none)
  | .expression => do
    restart
    let e ← Routine.expr.perform none
    match ← ahead with
    | none => return e
    | some t => refuse (.trailing t)

/-! ## Runs -/

section run

variable {α β : Type} {x : Work α} {k : α → Work β} {m m' : Machine}

theorem run_bind_of_ok {a : α} (h : x.run.run m = some (.ok a, m')) :
    (x >>= k).run.run m = (k a).run.run m' := by
  rw [ExceptT.run_bind, StateT.run_bind, h]
  rfl

theorem run_bind_of_error {f : Fault} (h : x.run.run m = some (.error f, m')) :
    (x >>= k).run.run m = some (.error f, m') := by
  rw [ExceptT.run_bind, StateT.run_bind, h]
  rfl

theorem run_next (m : Machine) : next.run.run m =
    match m.scanner.next with
    | (.token t, scanner) =>
      some (.ok (), { m with scanner, ahead := some t, asked := m.asked + 1 })
    | (.finish, scanner) => some (.ok (), { m with scanner, ahead := none, asked := m.asked + 1 })
    | (.fault f, scanner) => some (.error f, { m with scanner, asked := m.asked + 1 }) := by
  have run : next.run.run m = (match m.scanner.next with
      | (item, scanner) => match item with
        | .token t => set { m with scanner, ahead := some t, asked := m.asked + 1 }
        | .finish => set { m with scanner, ahead := none, asked := m.asked + 1 }
        | .fault f => do
          set { m with scanner, asked := m.asked + 1 }
          throw f : Work Unit).run.run m := rfl
  rw [run]
  rcases m.scanner.next with ⟨i, s⟩
  cases i <;> rfl

theorem run_expect (s : Symbol) (cause : GrammarCause) (m : Machine) : (expect s cause).run.run m =
    if m.ahead = some (.symbol s) then next.run.run m else (refuse cause : Work Unit).run.run m := by
  show (if m.ahead = some (.symbol s) then next else refuse cause : Work Unit).run.run m = _
  split <;> rfl

end run

end Work

/-- Lets the parser read its text once for each of the modes. -/
def Machine.parseAll (m : Machine) :
    List ParseMode → Option (List ((mode : ParseMode) × Except Fault mode.Tree) × Machine)
  | [] => some ([], m)
  | mode :: modes => do
    let (outcome, m) ← (Work.parse mode).run.run m
    let (outcomes, m) ← m.parseAll modes
    return (⟨mode, outcome⟩ :: outcomes, m)

end TweenScript
