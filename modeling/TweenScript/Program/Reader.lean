import TweenScript.Fault
import TweenScript.Program
import TweenScript.Text

/-!
# Reading programs off tokens

One function for each category of the grammar, with the binary operators graded by rank: an operand
of rank `n` holds no operator of a rank above `n` outside parentheses, and operators of one rank
group to the left. A refusal names its cause and keeps the tokens from the offending one on.

The functions call each other on fewer tokens, or on the same tokens for a category below: the
`termination_by` measures number the categories.
-/

namespace TweenScript

/-- Why tokens are refused, and the tokens from the offending one on. -/
structure Refusal where
  cause : GrammarCause
  rest : List Token
  deriving DecidableEq

/-- What reading comes to: a refusal, or a value and what is left. -/
abbrev Reading (α : Type) (bound : Nat) : Type :=
  Except Refusal (Parsed Token α bound)

/-! ## Operators and links -/

/-- How loosely an operator binds, from `1` to `6`. -/
def BinaryOp.rank : BinaryOp → Nat
  | arithmetic .mul | arithmetic .div => 1
  | arithmetic .add | arithmetic .sub => 2
  | comparison .lt | comparison .gt | comparison .le | comparison .ge => 3
  | comparison .eq | comparison .ne => 4
  | logical .and => 5
  | logical .or => 6

/-- The rank of the loosest operators. -/
def topRank : Nat := 6

/-- What an operator means between two operands. -/
def Operator.binary? : Operator → Option BinaryOp
  | plus => some (.arithmetic .add)
  | minus => some (.arithmetic .sub)
  | star => some (.arithmetic .mul)
  | slash => some (.arithmetic .div)
  | not => none
  | and => some (.logical .and)
  | or => some (.logical .or)
  | equal => some (.comparison .eq)
  | notEqual => some (.comparison .ne)
  | less => some (.comparison .lt)
  | greater => some (.comparison .gt)
  | lessEqual => some (.comparison .le)
  | greaterEqual => some (.comparison .ge)

/-- What an operator means between two operands, if that is an operator of rank `n`. -/
def Operator.ofRank? (n : Nat) (op : Operator) : Option BinaryOp :=
  op.binary?.filter (·.rank = n)

/-- The links with arguments by their names; any other name is refused. -/
def Link.named (name : String) : Except GrammarCause (List Expr → Link) :=
  if name = "From" then .ok (.start false)
  else if name = "FromRelative" then .ok (.start true)
  else if name = "Delay" then .ok .delay
  else if name = "Animate" then .ok .animate
  else if Ease.isMarked name then
    match Ease.named? name with
    | some e => .ok (.ease e)
    | none => .error (.unknownEasing name)
  else .error (.unknownLink name)

/-! ## Categories -/

/-- Takes the symbol `s`, or refuses for `cause`. -/
def expect (s : Symbol) (cause : GrammarCause) (ts : List Token) : Reading Unit ts.length :=
  match ts with
  | .symbol t :: rest => if t = s then .ok ⟨(), rest, by simp⟩ else .error ⟨cause, .symbol t :: rest⟩
  | ts => .error ⟨cause, ts⟩

mutual

/-- A statement: a block, a condition with its body, or an expression with a semicolon. -/
def readStatement (ts : List Token) : Reading Statement ts.length :=
  match ts with
  | .symbol .lbrace :: rest => do
    let ⟨body, rest, h⟩ ← readBlock rest
    return ⟨.block body, rest, by simp only [List.length_cons]; omega⟩
  | .symbol .when :: rest => do
    let ⟨_, rest, h₁⟩ ← expect .lparen .missingConditionStart rest
    let ⟨condition, rest, h₂⟩ ← readExpr rest
    let ⟨_, rest, h₃⟩ ← expect .rparen .missingConditionEnd rest
    let ⟨body, rest, h₄⟩ ← readStatement rest
    return ⟨.when condition body, rest, by simp only [List.length_cons]; omega⟩
  | ts => do
    let ⟨e, rest, h₁⟩ ← readExpr ts
    let ⟨_, rest, h₂⟩ ← expect .semicolon .missingSemicolon rest
    return ⟨.expr e, rest, by omega⟩
termination_by 16 * ts.length + 12
decreasing_by all_goals ((try simp only [List.length_cons]); omega)

/-- The statements of a block whose brace is open, and its closing brace. -/
def readBlock (ts : List Token) : Reading (List Statement) ts.length :=
  match ts with
  | [] => .error ⟨.missingBlockEnd, []⟩
  | .symbol .rbrace :: rest => .ok ⟨[], rest, by simp⟩
  | ts => do
    let ⟨s, rest, h₁⟩ ← readStatement ts
    let ⟨body, rest, h₂⟩ ← readBlock rest
    return ⟨s :: body, rest, by omega⟩
termination_by 16 * ts.length + 13
decreasing_by all_goals omega

/-- An expression: an operand of the top rank, alone or as the condition of two branches. -/
def readExpr (ts : List Token) : Reading Expr ts.length := do
  let ⟨e, rest, h₁⟩ ← readBinary topRank ts
  match rest, h₁ with
  | .symbol .question :: rest, h₁ => do
    let ⟨yes, rest, h₂⟩ ← readExpr rest
    let ⟨_, rest, h₃⟩ ← expect .colon .missingColon rest
    let ⟨no, rest, h₄⟩ ← readExpr rest
    return ⟨.conditional e yes no, rest, by simp only [List.length_cons] at h₁; omega⟩
  | rest, h₁ => return ⟨e, rest, h₁⟩
termination_by 16 * ts.length + 11
decreasing_by all_goals ((try simp only [topRank, List.length_cons] at *); omega)

/-- An operand of rank `n`. -/
def readBinary (n : Nat) (ts : List Token) : Reading Expr ts.length :=
  match n with
  | 0 => readUnary ts
  | n + 1 => do
    let ⟨left, rest, h₁⟩ ← readBinary n ts
    let ⟨e, rest, h₂⟩ ← readOperators n left rest
    return ⟨e, rest, by omega⟩
termination_by 16 * ts.length + n + 3
decreasing_by all_goals omega

/-- The operators of rank `n + 1` after `left`, each with its right operand. -/
def readOperators (n : Nat) (left : Expr) (ts : List Token) : Reading Expr (ts.length + 1) :=
  match ts with
  | .operator op :: rest =>
    match op.ofRank? (n + 1) with
    | some b => do
      let ⟨right, rest, h₁⟩ ← readBinary n rest
      let ⟨e, rest, h₂⟩ ← readOperators n (.binary b left right) rest
      return ⟨e, rest, by simp only [List.length_cons]; omega⟩
    | none => .ok ⟨left, .operator op :: rest, by simp⟩
  | ts => .ok ⟨left, ts, by simp⟩
termination_by 16 * ts.length + n
decreasing_by all_goals (simp only [List.length_cons]; omega)

/-- An operand with the signs before it. A plus sign leaves no trace. -/
def readUnary (ts : List Token) : Reading Expr ts.length :=
  match ts with
  | .operator .plus :: rest => do
    let ⟨e, rest, h⟩ ← readUnary rest
    return ⟨e, rest, by simp only [List.length_cons]; omega⟩
  | .operator .minus :: rest => do
    let ⟨e, rest, h⟩ ← readUnary rest
    return ⟨.unary .neg e, rest, by simp only [List.length_cons]; omega⟩
  | .operator .not :: rest => do
    let ⟨e, rest, h⟩ ← readUnary rest
    return ⟨.unary .not e, rest, by simp only [List.length_cons]; omega⟩
  | ts => readCall ts
termination_by 16 * ts.length + 2
decreasing_by all_goals ((try simp only [List.length_cons]); omega)

/-- A primary expression, or a call of the name that it is. -/
def readCall (ts : List Token) : Reading Expr ts.length := do
  let ⟨callee, rest, h₁⟩ ← readPrimary ts
  match rest, h₁ with
  | .symbol .lparen :: rest, h₁ =>
    match callee with
    | .variable name =>
      match Channel.named? name with
      | some channel => do
        let ⟨args, rest, h₂⟩ ← readArguments rest
        let ⟨links, rest, h₃⟩ ← readLinks rest
        return ⟨.tween ⟨channel, name, args, links⟩, rest,
          by simp only [List.length_cons] at h₁; omega⟩
      | none =>
        if name = "Active" then do
          let ⟨args, rest, h₂⟩ ← readArguments rest
          return ⟨.setActive args, rest, by simp only [List.length_cons] at h₁; omega⟩
        else if name = "Callback" then do
          let ⟨_, rest, h₂⟩ ← readArguments rest
          return ⟨.callback, rest, by simp only [List.length_cons] at h₁; omega⟩
        else throw ⟨.unknownTween name, .symbol .lparen :: rest⟩
    | _ => throw ⟨.badCallee, .symbol .lparen :: rest⟩
  | rest, h₁ => return ⟨callee, rest, h₁⟩
termination_by 16 * ts.length + 1
decreasing_by all_goals ((try simp only [List.length_cons] at *); omega)

/-- A number, a name, or an expression in parentheses. -/
def readPrimary (ts : List Token) : Reading Expr ts.length :=
  match ts with
  | .number v :: rest => .ok ⟨.number v, rest, by simp⟩
  | .identifier name :: rest => .ok ⟨.variable name, rest, by simp⟩
  | .symbol .lparen :: rest => do
    let ⟨e, rest, h₁⟩ ← readExpr rest
    let ⟨_, rest, h₂⟩ ← expect .rparen .missingGroupEnd rest
    return ⟨e, rest, by simp only [List.length_cons]; omega⟩
  | .operator op :: rest => .error ⟨.misplacedOperator op, .operator op :: rest⟩
  | .symbol s :: rest => .error ⟨.misplacedSymbol s, .symbol s :: rest⟩
  | [] => .error ⟨.endOfInput, []⟩
termination_by 16 * ts.length
decreasing_by simp only [List.length_cons]; omega

/-- The arguments of a call whose parenthesis is open, and its closing parenthesis. -/
def readArguments (ts : List Token) : Reading (List Expr) ts.length :=
  match ts with
  | .symbol .rparen :: rest => .ok ⟨[], rest, by simp⟩
  | ts => readMoreArguments ts
termination_by 16 * ts.length + 13
decreasing_by omega

/-- One argument or more, and the closing parenthesis. -/
def readMoreArguments (ts : List Token) : Reading (List Expr) ts.length := do
  let ⟨e, rest, h₁⟩ ← readExpr ts
  match rest, h₁ with
  | .symbol .comma :: rest, h₁ => do
    let ⟨es, rest, h₂⟩ ← readMoreArguments rest
    return ⟨e :: es, rest, by simp only [List.length_cons] at h₁; omega⟩
  | .symbol .rparen :: rest, h₁ =>
    return ⟨[e], rest, by simp only [List.length_cons] at h₁; omega⟩
  | rest, _ => throw ⟨.missingArgumentsEnd, rest⟩
termination_by 16 * ts.length + 12
decreasing_by all_goals ((try simp only [List.length_cons] at *); omega)

/-- The links of a chain. -/
def readLinks (ts : List Token) : Reading (List Link) (ts.length + 1) :=
  match ts with
  | .symbol .dot :: .identifier name :: .symbol .lparen :: rest => do
    let ⟨link, rest, h₁⟩ ← readLink name rest
    let ⟨links, rest, h₂⟩ ← readLinks rest
    return ⟨link :: links, rest, by simp only [List.length_cons]; omega⟩
  | .symbol .dot :: .identifier _ :: rest => .error ⟨.missingLinkArguments, rest⟩
  | .symbol .dot :: rest => .error ⟨.badLinkName, rest⟩
  | ts => .ok ⟨[], ts, by simp⟩
termination_by 16 * ts.length
decreasing_by all_goals (simp only [List.length_cons]; omega)

/-- The rest of the link `name` whose parenthesis is open. -/
def readLink (name : String) (ts : List Token) : Reading Link ts.length :=
  if name = "Then" then do
    let ⟨body, rest, h₁⟩ ← readStatement ts
    let ⟨_, rest, h₂⟩ ← expect .rparen .missingThenEnd rest
    return ⟨.andThen body, rest, by omega⟩
  else
    match Link.named name with
    | .ok make => do
      let ⟨args, rest, h⟩ ← readArguments ts
      return ⟨make args, rest, h⟩
    | .error cause => .error ⟨cause, .symbol .lparen :: ts⟩
termination_by 16 * ts.length + 14
decreasing_by all_goals omega

end

/-! ## Whole inputs -/

/-- All of `ts` as statements. -/
def readStatements (ts : List Token) : Except Refusal (List Statement) :=
  match ts with
  | [] => .ok []
  | ts => do
    let ⟨s, rest, _⟩ ← readStatement ts
    let body ← readStatements rest
    return s :: body
termination_by ts.length

/-- All of `ts` as a program. -/
def readProgram (ts : List Token) : Except Refusal Statement :=
  return Statement.ofList (← readStatements ts)

/-- All of `ts` as one expression. -/
def readExpression (ts : List Token) : Except Refusal Expr := do
  let ⟨e, rest, _⟩ ← readExpr ts
  match rest with
  | [] => return e
  | t :: rest => throw ⟨.trailing t, t :: rest⟩

end TweenScript
