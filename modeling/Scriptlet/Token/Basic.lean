import Scriptlet.Number.Shortest

namespace Scriptlet

inductive Kind where
  | leftParen | rightParen | leftBrace | rightBrace
  | comma | dot | minus | plus | semicolon | slash | star | question | colon
  | bang | bangEqual | equal | equalEqual | greater | greaterEqual | less | lessEqual
  | name | string | number
  | kwAnd | kwClass | kwElse | kwFalse | kwFun | kwFor | kwIf | kwNil | kwOr | kwPrint
  | kwReturn | kwSuper | kwThis | kwTrue | kwVar | kwWhile
  | endMark
deriving DecidableEq, Repr

namespace Kind

def label : Kind → String
  | leftParen => "LPAR"
  | rightParen => "RPAR"
  | leftBrace => "LBRACE"
  | rightBrace => "RBRACE"
  | comma => "COMMA"
  | dot => "DOT"
  | minus => "MINUS"
  | plus => "PLUS"
  | semicolon => "SEMI"
  | slash => "SLASH"
  | star => "STAR"
  | question => "QUESTION"
  | colon => "COLON"
  | bang => "EXCLAMATION"
  | bangEqual => "NOTEQUAL"
  | equal => "EQUAL"
  | equalEqual => "EQEQUAL"
  | greater => "GREATER"
  | greaterEqual => "GREATEREQUAL"
  | less => "LESS"
  | lessEqual => "LESSEQUAL"
  | name => "NAME"
  | string => "STRING"
  | number => "NUMBER"
  | kwAnd => "AND"
  | kwClass => "CLASS"
  | kwElse => "ELSE"
  | kwFalse => "FALSE"
  | kwFun => "FUN"
  | kwFor => "FOR"
  | kwIf => "IF"
  | kwNil => "NIL"
  | kwOr => "OR"
  | kwPrint => "PRINT"
  | kwReturn => "RETURN"
  | kwSuper => "SUPER"
  | kwThis => "THIS"
  | kwTrue => "TRUE"
  | kwVar => "VAR"
  | kwWhile => "WHILE"
  | endMark => "ENDMARKER"

def keywords : List (String × Kind) :=
  [("and", kwAnd), ("class", kwClass), ("else", kwElse), ("false", kwFalse), ("for", kwFor),
    ("fun", kwFun), ("if", kwIf), ("nil", kwNil), ("or", kwOr), ("print", kwPrint),
    ("return", kwReturn), ("super", kwSuper), ("this", kwThis), ("true", kwTrue),
    ("var", kwVar), ("while", kwWhile)]

def ofWord (word : String) : Kind := (keywords.lookup word).getD name

def ofChar? : Char → Option Kind
  | '(' => some leftParen
  | ')' => some rightParen
  | '{' => some leftBrace
  | '}' => some rightBrace
  | ',' => some comma
  | '.' => some dot
  | '-' => some minus
  | '+' => some plus
  | ';' => some semicolon
  | '/' => some slash
  | '*' => some star
  | '?' => some question
  | ':' => some colon
  | '!' => some bang
  | '=' => some equal
  | '>' => some greater
  | '<' => some less
  | _ => none

/-- The operator that a character makes together with `=`. -/
def withEqual? : Char → Option Kind
  | '!' => some bangEqual
  | '=' => some equalEqual
  | '<' => some lessEqual
  | '>' => some greaterEqual
  | _ => none

end Kind

inductive Literal where
  | string (text : String)
  | number (value : Float)
deriving DecidableEq, Repr

def Literal.text : Literal → String
  | string s => s
  | number x => numberText x

structure Token where
  kind : Kind
  lexeme : String
  literal : Option Literal
  line : Nat
deriving DecidableEq, Repr

namespace Token

/-- The mark that closes a list of tokens. -/
def endAt (line : Nat) : Token := ⟨.endMark, "", none, line⟩

/-- A token in a listing: `NAME('x')`, `NUMBER('1.50', 1.5)`. -/
def text (t : Token) : String :=
  let value := match t.literal with
    | some l => ", " ++ l.text
    | none => ""
  t.kind.label ++ "('" ++ t.lexeme ++ "'" ++ value ++ ")"

end Token

end Scriptlet
