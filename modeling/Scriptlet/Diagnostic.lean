import Scriptlet.Token.Basic

namespace Scriptlet

inductive Fault where
  | unexpectedCharacter
  | unterminatedString
  | unterminatedComment
  | expectedExpression
  | missingLeftOperand
  | invalidTarget
  | unclosedGroup
  | missingColon
  | missingName
  | unendedDeclaration
  | unendedPrint
  | unendedExpression
  | unclosedBlock
  | ifWithoutParen
  | unclosedIfCondition
  | whileWithoutParen
  | unclosedWhileCondition
deriving DecidableEq, Repr

def Fault.message : Fault → String
  | unexpectedCharacter => "Unexpected character."
  | unterminatedString => "Unterminated string."
  | unterminatedComment => "Unterminated block comment."
  | expectedExpression => "Expected expression."
  | missingLeftOperand => "Missing left-hand operand."
  | invalidTarget => "Invalid assignment target."
  | unclosedGroup => "Expected ')' after expression."
  | missingColon => "Expected ':' after then branch of conditional expression."
  | missingName => "Expected variable name."
  | unendedDeclaration => "Expected ';' after variable declaration."
  | unendedPrint => "Expected ';' after value."
  | unendedExpression => "Expected ';' after expression."
  | unclosedBlock => "Expected '\x7d' after block."
  | ifWithoutParen => "Expected '(' after 'if'."
  | unclosedIfCondition => "Expected ')' after if condition."
  | whileWithoutParen => "Expected '(' after 'while'."
  | unclosedWhileCondition => "Expected ')' after condition."

/-- Where on its line a fault was found: the text scanned badly, the end was reached, or a
token does not fit. -/
inductive Location where
  | nowhere
  | atEnd
  | atLexeme (lexeme : String)
deriving DecidableEq, Repr

def Location.text : Location → String
  | nowhere => ""
  | atEnd => " at end"
  | atLexeme s => " at '" ++ s ++ "'"

structure Diagnostic where
  line : Nat
  location : Location
  fault : Fault
deriving DecidableEq, Repr

namespace Diagnostic

/-- Blames a token; the end mark has no lexeme to show. -/
def atToken (t : Token) (fault : Fault) : Diagnostic :=
  ⟨t.line, if t.kind = .endMark then .atEnd else .atLexeme t.lexeme, fault⟩

def text (d : Diagnostic) : String :=
  "[line " ++ toString d.line ++ "] Error" ++ d.location.text ++ ": " ++ d.fault.message

end Diagnostic

end Scriptlet
