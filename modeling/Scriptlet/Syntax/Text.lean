import Scriptlet.Syntax.Basic
import Scriptlet.Text.Quoted

namespace Scriptlet

def Expr.text : Expr → String
  | string s => Text.quoted s
  | number x => numberText x
  | bool b => if b then "true" else "false"
  | nil => "nil"
  | unary op operand => "(" ++ op.lexeme ++ " " ++ operand.text ++ ")"
  | binary op left right | logical op left right =>
    "(" ++ op.lexeme ++ " " ++ left.text ++ " " ++ right.text ++ ")"
  | conditional condition yes no =>
    "(?: " ++ condition.text ++ " " ++ yes.text ++ " " ++ no.text ++ ")"
  | group inner => "(group " ++ inner.text ++ ")"
  | var name => name.lexeme
  | assign name value => "(= " ++ name.lexeme ++ " " ++ value.text ++ ")"

mutual

def Stmt.text : Stmt → String
  | .expression e => "(; " ++ e.text ++ ")"
  | .print e => "(print " ++ e.text ++ ")"
  | .declare name (some e) => "(var " ++ name.lexeme ++ " " ++ e.text ++ ")"
  | .declare name none => "(var " ++ name.lexeme ++ ")"
  | .block body => "(block" ++ Stmt.spaced body ++ ")"
  | .branch condition yes (some no) =>
    "(if " ++ condition.text ++ " " ++ yes.text ++ " " ++ no.text ++ ")"
  | .branch condition yes none => "(if " ++ condition.text ++ " " ++ yes.text ++ ")"
  | .loop condition body => "(while " ++ condition.text ++ " " ++ body.text ++ ")"

def Stmt.spaced : List Stmt → String
  | [] => ""
  | s :: body => " " ++ s.text ++ Stmt.spaced body

end

end Scriptlet
