import TweenScript.Program.Parser

/-!
# Parsing as a dialogue

A parser that looks one token ahead asks for one token after the other, and what it does next depends on
the answers so far and on nothing else. A dialogue is such a parser: a tree that branches at every
question.
-/

namespace TweenScript

/-- A computation that asks for the tokens of a text, one after the other; `none` is the answer at the end
of the text. `tired` stands where a computation of limited depth breaks off. -/
inductive Dialogue (α : Type) where
  | value (a : α)
  | refuse (cause : GrammarCause)
  | ask (reply : Option Token → Dialogue α)
  | tired

namespace Dialogue

variable {α β : Type}

/-- The dialogue `k` after the dialogue `d`. -/
def bind (d : Dialogue α) (k : α → Dialogue β) : Dialogue β :=
  match d with
  | value a => k a
  | refuse cause => refuse cause
  | ask reply => ask fun t => (reply t).bind k
  | tired => tired

instance : Monad Dialogue where
  pure := value
  bind := bind

end Dialogue

/-! ## One token ahead -/

/-- A dialogue that keeps the last answer in sight. -/
abbrev Lookahead : Type → Type :=
  StateT (Option Token) Dialogue

namespace Lookahead

variable {α : Type}

/-- The token ahead. -/
def ahead : Lookahead (Option Token) :=
  get

/-- Takes the token ahead and asks for the one behind it. -/
def shift : Lookahead Unit := fun _ =>
  .ask fun t => .value ((), t)

def refuse (cause : GrammarCause) : Lookahead α := fun _ =>
  .refuse cause

def tired : Lookahead α := fun _ =>
  .tired

/-- Takes the symbol `s`, or refuses the token ahead for `cause`. -/
def expect (s : Symbol) (cause : GrammarCause) : Lookahead Unit := do
  if (← ahead) = some (.symbol s) then
    shift
  else
    refuse cause

/-! ## Categories -/

-- the first argument bounds the depth of the calls
mutual

def statement : Nat → Lookahead Statement
  | 0 => tired
  | n + 1 => do
    match ← ahead with
    | some (.symbol .lbrace) =>
      shift
      return .block (← block n)
    | some (.symbol .when) =>
      shift
      expect .lparen .missingConditionStart
      let condition ← expr n
      expect .rparen .missingConditionEnd
      return .when condition (← statement n)
    | _ =>
      let e ← expr n
      expect .semicolon .missingSemicolon
      return .expr e

def block : Nat → Lookahead (List Statement)
  | 0 => tired
  | n + 1 => do
    match ← ahead with
    | none => refuse .missingBlockEnd
    | some (.symbol .rbrace) =>
      shift
      return []
    | _ =>
      let s ← statement n
      return s :: (← block n)

def expr : Nat → Lookahead Expr
  | 0 => tired
  | n + 1 => do
    let e ← binary n topRank
    match ← ahead with
    | some (.symbol .question) =>
      shift
      let yes ← expr n
      expect .colon .missingColon
      return .conditional e yes (← expr n)
    | _ => return e

def binary : Nat → Nat → Lookahead Expr
  | 0, _ => tired
  | n + 1, 0 => unary n
  | n + 1, rank + 1 => do
    let left ← binary n rank
    operators n rank left

def operators : Nat → Nat → Expr → Lookahead Expr
  | 0, _, _ => tired
  | n + 1, rank, left => do
    match ← ahead with
    | some (.operator op) =>
      match op.ofRank? (rank + 1) with
      | some b =>
        shift
        let right ← binary n rank
        operators n rank (.binary b left right)
      | none => return left
    | _ => return left

def unary : Nat → Lookahead Expr
  | 0 => tired
  | n + 1 => do
    match ← ahead with
    | some (.operator .plus) =>
      shift
      unary n
    | some (.operator .minus) =>
      shift
      return .unary .neg (← unary n)
    | some (.operator .not) =>
      shift
      return .unary .not (← unary n)
    | _ => call n

def call : Nat → Lookahead Expr
  | 0 => tired
  | n + 1 => do
    let callee ← primary n
    match ← ahead with
    | some (.symbol .lparen) =>
      match callee with
      | .variable name =>
        match Channel.named? name with
        | some channel =>
          shift
          let args ← arguments n
          return .tween ⟨channel, name, args, ← links n⟩
        | none =>
          if name = "Active" then
            shift
            return .setActive (← arguments n)
          else if name = "Callback" then
            shift
            let _ ← arguments n
            return .callback
          else
            refuse (.unknownTween name)
      | _ => refuse .badCallee
    | _ => return callee

def primary : Nat → Lookahead Expr
  | 0 => tired
  | n + 1 => do
    match ← ahead with
    | some (.number v) =>
      shift
      return .number v
    | some (.identifier name) =>
      shift
      return .variable name
    | some (.symbol .lparen) =>
      shift
      let e ← expr n
      expect .rparen .missingGroupEnd
      return e
    | some (.operator op) => refuse (.misplacedOperator op)
    | some (.symbol s) => refuse (.misplacedSymbol s)
    | none => refuse .endOfInput

def arguments : Nat → Lookahead (List Expr)
  | 0 => tired
  | n + 1 => do
    match ← ahead with
    | some (.symbol .rparen) =>
      shift
      return []
    | _ => moreArguments n

def moreArguments : Nat → Lookahead (List Expr)
  | 0 => tired
  | n + 1 => do
    let e ← expr n
    match ← ahead with
    | some (.symbol .comma) =>
      shift
      return e :: (← moreArguments n)
    | some (.symbol .rparen) =>
      shift
      return [e]
    | _ => refuse .missingArgumentsEnd

def links : Nat → Lookahead (List Link)
  | 0 => tired
  | n + 1 => do
    match ← ahead with
    | some (.symbol .dot) =>
      shift
      match ← ahead with
      | some (.identifier name) =>
        shift
        match ← ahead with
        | some (.symbol .lparen) =>
          let link ← link n name
          return link :: (← links n)
        | _ => refuse .missingLinkArguments
      | _ => refuse .badLinkName
    | _ => return []

def link : Nat → String → Lookahead Link
  | 0, _ => tired
  | n + 1, name => do
    if name = "Then" then
      shift
      let body ← statement n
      expect .rparen .missingThenEnd
      return .andThen body
    else
      match Link.named name with
      | .ok make =>
        shift
        return make (← arguments n)
      | .error cause => refuse cause

end

def statements : Nat → Lookahead (List Statement)
  | 0 => tired
  | n + 1 => do
    match ← ahead with
    | none => return []
    | some _ =>
      let s ← statement n
      return s :: (← statements n)

/-! ## Whole texts -/

def program (n : Nat) : Lookahead Statement := do
  return Statement.ofList (← statements n)

def expression (n : Nat) : Lookahead Expr := do
  let e ← expr n
  match ← ahead with
  | none => return e
  | some t => refuse (.trailing t)

/-- The dialogue that asks for a first token and goes on with `m`. -/
def start (m : Lookahead α) : Dialogue α :=
  StateT.run' (do shift; m) none

end Lookahead

/-- What a text may be read as. -/
inductive ParseMode where
  | program
  | expression

namespace ParseMode

/-- What reading comes to. -/
def Tree : ParseMode → Type
  | program => Statement
  | expression => Expr

/-- Reads all of the tokens. -/
def read : (m : ParseMode) → List Token → Except Refusal m.Tree
  | program => readProgram
  | expression => readExpression

/-- What the text spells. -/
def parse : (m : ParseMode) → String → Except Fault m.Tree
  | program => parseProgram
  | expression => parseExpression

/-- The dialogue that reads, of limited depth. -/
def dialogue : (m : ParseMode) → Nat → Dialogue m.Tree
  | program, n => (Lookahead.program n).start
  | expression, n => (Lookahead.expression n).start

end ParseMode

/-! ## Dialogues with scanners -/

/-- What has come of a dialogue with a scanner. -/
@[ext]
structure Held (α : Type) where
  /-- Nothing, if the dialogue has broken off. -/
  outcome : Option (Except Fault α)
  /-- How many items the scanner was asked for. -/
  asked : Nat
  /-- The scanner behind the last of them. -/
  scanner : Scanner

/-- Holds a dialogue with a scanner: every question is a call for the next item, a fault ends the
dialogue, and a refusal names the line where the scanner stands. -/
def Dialogue.hold {α : Type} : Dialogue α → Scanner → Held α
  | value a, s => ⟨some (.ok a), 0, s⟩
  | refuse cause, s => ⟨some (.error (.grammar s.position.line cause)), 0, s⟩
  | tired, s => ⟨none, 0, s⟩
  | ask reply, s =>
    match s.next with
    | (.token t, s') =>
      let rest := (reply (some t)).hold s'
      { rest with asked := rest.asked + 1 }
    | (.finish, s') =>
      let rest := (reply none).hold s'
      { rest with asked := rest.asked + 1 }
    | (.fault f, s') => ⟨some (.error f), 1, s'⟩

namespace ParseMode

/-- The dialogue about a text. It is no deeper than sixteen calls for each character, and a few. -/
def held (m : ParseMode) (text : String) : Held m.Tree :=
  (m.dialogue (16 * text.length + 14)).hold (.ofString text)

/-- How many items of the text are asked for. -/
def asked (m : ParseMode) (text : String) : Nat :=
  (m.held text).asked

end ParseMode

end TweenScript
