import TweenScript.Decimal.Style

/-!
# Tokens

The words of a script: names, numbers, operators and punctuation. `&`, `|` and `=` are other
spellings of `&&`, `||` and `==` and leave no trace in the token.
-/

namespace TweenScript

/-- Operators, by what their place in an expression makes of them. -/
inductive Operator where
  | plus
  | minus
  | star
  | slash
  | not
  | and
  | or
  | equal
  | notEqual
  | less
  | greater
  | lessEqual
  | greaterEqual
  deriving DecidableEq, Repr

/-- The spelling of an operator in messages. -/
def Operator.text : Operator → String
  | plus => "+"
  | minus => "-"
  | star => "*"
  | slash => "/"
  | not => "!"
  | and => "&&"
  | or => "||"
  | equal => "=="
  | notEqual => "!="
  | less => "<"
  | greater => ">"
  | lessEqual => "<="
  | greaterEqual => ">="

/-- Punctuation, and the one keyword. -/
inductive Symbol where
  | lparen
  | rparen
  | lbrace
  | rbrace
  | dot
  | semicolon
  | comma
  | question
  | colon
  | when
  deriving DecidableEq, Repr

/-- The spelling of a symbol. -/
def Symbol.text : Symbol → String
  | lparen => "("
  | rparen => ")"
  | lbrace => "\x7b"
  | rbrace => "\x7d"
  | dot => "."
  | semicolon => ";"
  | comma => ","
  | question => "?"
  | colon => ":"
  | when => "if"

/-- A word of a script. -/
inductive Token where
  | identifier (name : String)
  | number (value : Float)
  | operator (op : Operator)
  | symbol (s : Symbol)
  deriving DecidableEq

/-- How a message names a token. -/
def Token.describe : Token → String
  | identifier name => "identifier '" ++ name ++ "'"
  | number value => "number " ++ Style.plain.text value
  | operator op => "operator '" ++ op.text ++ "'"
  | symbol s => "symbol '" ++ s.text ++ "'"

end TweenScript
