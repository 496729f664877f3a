import TweenScript.Program.Reader
import TweenScript.Token.Scanner

/-!
# Parsers

A parser reads its text from the front as often as it is asked to. It takes one item at a time and
looks at one item ahead, so a refusal leaves its scanner behind the offending token, and a lexical
fault comes up exactly when the parser has accepted everything before it.
-/

namespace TweenScript

/-- A parser of one text. -/
structure Parser where
  scanner : Scanner
  deriving DecidableEq

namespace Parser

/-- A parser of `text`. -/
def ofString (text : String) : Parser :=
  ⟨.ofString text⟩

/-- The outcome of reading `ts`, and the scanner behind the last item that was asked for. A refusal
at the end of the tokens counts only if the text ends there too: a lexical fault comes before it. -/
def conclude {α : Type} (ts : Tokens) : Except Refusal α → Except Fault α × Scanner
  | .ok a =>
    match ts.fault with
    | none => (.ok a, ts.last)
    | some f => (.error f, ts.last)
  | .error refusal =>
    match ts.list.drop (ts.list.length - refusal.rest.length), ts.fault with
    | (_, s) :: _, _ => (.error (.grammar s.position.line refusal.cause), s)
    | [], some f => (.error f, ts.last)
    | [], none => (.error (.grammar ts.last.position.line refusal.cause), ts.last)

/-- Reads the whole text from its front, as `read` reads its tokens. -/
def run {α : Type} (read : List Token → Except Refusal α) (p : Parser) :
    Except Fault α × Parser :=
  let ts := p.scanner.rewind.tokens
  let (outcome, scanner) := conclude ts (read (ts.list.map (·.1)))
  (outcome, ⟨scanner⟩)

/-- Reads the whole text as a program. -/
def program (p : Parser) : Except Fault Statement × Parser :=
  p.run readProgram

/-- Reads the whole text as one expression. -/
def expression (p : Parser) : Except Fault Expr × Parser :=
  p.run readExpression

end Parser

/-- The program that `text` spells. -/
def parseProgram (text : String) : Except Fault Statement :=
  (Parser.ofString text).program.1

/-- The expression that `text` spells. -/
def parseExpression (text : String) : Except Fault Expr :=
  (Parser.ofString text).expression.1

end TweenScript
