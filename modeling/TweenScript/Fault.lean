import TweenScript.Text
import TweenScript.Token

/-!
# Faults

Everything that can go wrong, by its cause. `Fault.message` holds all the wording. Causes a host
finds for itself carry their own text.
-/

namespace TweenScript

/-- Why a text is no sequence of tokens. -/
inductive LexicalCause where
  | unknownCharacter (c : Char)
  /-- A hexadecimal literal without digits, or too large for 32 bits. -/
  | badHex (lexeme : String)
  | unclosedComment
  | other (text : String)
  deriving DecidableEq, Repr

/-- Why a sequence of tokens is no script. -/
inductive GrammarCause where
  | missingSemicolon
  | missingBlockEnd
  | missingConditionStart
  | missingConditionEnd
  | missingColon
  | missingGroupEnd
  | missingArgumentsEnd
  | missingThenEnd
  | missingLinkArguments
  | badLinkName
  | badCallee
  | unknownTween (name : String)
  | unknownEasing (name : String)
  | unknownLink (name : String)
  | trailing (t : Token)
  | misplacedOperator (op : Operator)
  | misplacedSymbol (s : Symbol)
  | endOfInput
  | other (text : String)
  deriving DecidableEq

/-- Why an argument is refused. -/
inductive ArgumentCause where
  | noObjectName (call : String)
  | other (text : String)
  deriving DecidableEq, Repr

/-- Why a name stands for no object. -/
inductive ResolutionCause where
  | unknownObject (path name : String)
  | other (text : String)
  deriving DecidableEq, Repr

/-- Why an asset is refused. -/
inductive AssetCause where
  | blankPathName
  | duplicatePathName (name : String)
  | blankVariableName
  | duplicateVariableName (name : String)
  | notFinite (name : String)
  | notJson
  | other (text : String)
  deriving DecidableEq, Repr

/-- Everything that can go wrong. -/
inductive Fault where
  | lexical (position : Position) (cause : LexicalCause)
  | grammar (line : Nat) (cause : GrammarCause)
  | arity (call : String) (expected : String) (got : Nat)
  | argument (cause : ArgumentCause)
  | resolution (cause : ResolutionCause)
  | asset (cause : AssetCause)
  | other (text : String)
  deriving DecidableEq

/-! ## Wording -/

/-- The wording of a lexical cause. -/
def LexicalCause.message : LexicalCause → String
  | unknownCharacter c => "unknown character '" ++ String.ofList [c] ++ "'"
  | badHex lexeme => "invalid hex number '" ++ lexeme ++ "'"
  | unclosedComment => "unterminated block comment"
  | other text => text

/-- The wording of a grammatical cause. -/
def GrammarCause.message : GrammarCause → String
  | missingSemicolon => "Missing ';' on statement"
  | missingBlockEnd => "Missing '\x7d' of block"
  | missingConditionStart => "Missing '(' of if condition"
  | missingConditionEnd => "Missing ')' of if condition"
  | missingColon => "Missing ':'"
  | missingGroupEnd => "Missing ')'"
  | missingArgumentsEnd => "Missing ')' of arguments"
  | missingThenEnd => "Missing ')' after Then body"
  | missingLinkArguments => "Missing '(' after method access"
  | badLinkName => "Invalid method access"
  | badCallee => "Invalid function call"
  | unknownTween name => name ++ " is not valid tween name"
  | unknownEasing name => name ++ " is not valid easing name"
  | unknownLink name => name ++ " is not valid method name"
  | trailing t => "Unexpected " ++ t.describe ++ " after expression"
  | misplacedOperator op => "Unknown operator '" ++ op.text ++ "'"
  | misplacedSymbol s => "Unknown symbol '" ++ s.text ++ "'"
  | endOfInput => "Unexpected end of input"
  | other text => text

/-- The wording of a refused argument. -/
def ArgumentCause.message : ArgumentCause → String
  | noObjectName call => "first argument of " ++ call ++ " must be an object name"
  | other text => text

/-- The wording of a name without object. -/
def ResolutionCause.message : ResolutionCause → String
  | unknownObject path name => "no object at '" ++ path ++ "' (from name '" ++ name ++ "')"
  | other text => text

/-- The wording of a refused asset. -/
def AssetCause.message : AssetCause → String
  | blankPathName => "object map name must be non-empty"
  | duplicatePathName name => "duplicate object map name '" ++ name ++ "'"
  | blankVariableName => "variable name must be non-empty"
  | duplicateVariableName name => "duplicate variable name '" ++ name ++ "'"
  | notFinite name => "variable '" ++ name ++ "' must be finite"
  | notJson => "invalid asset json"
  | other text => text

/-- The wording of a fault. -/
def Fault.message : Fault → String
  | lexical position cause =>
    "lex error on line " ++ toString position.line ++ " at byte " ++ toString position.offset ++
      ": " ++ cause.message
  | grammar line cause => "syntax error on line " ++ toString line ++ ": " ++ cause.message
  | arity call expected got =>
    "arity error: " ++ call ++ " expects " ++ expected ++ " arguments, got " ++ toString got
  | argument cause => "argument error: " ++ cause.message
  | resolution cause => "resolution error: " ++ cause.message
  | asset cause => "config error: " ++ cause.message
  | other text => text

end TweenScript
