import Scriptlet.Token.Basic

namespace Scriptlet

inductive Expr where
  | string (s : String)
  | number (x : Float)
  | bool (b : Bool)
  | nil
  | unary (op : Token) (operand : Expr)
  /-- Arithmetic, comparison, equality and the comma. -/
  | binary (op : Token) (left right : Expr)
  | logical (op : Token) (left right : Expr)
  | conditional (condition yes no : Expr)
  | group (inner : Expr)
  | var (name : Token)
  | assign (name : Token) (value : Expr)
deriving DecidableEq, Repr

inductive Stmt where
  | expression (e : Expr)
  | print (e : Expr)
  | declare (name : Token) (initializer : Option Expr)
  | block (body : List Stmt)
  | branch (condition : Expr) (yes : Stmt) (no : Option Stmt)
  | loop (condition : Expr) (body : Stmt)
deriving Repr

end Scriptlet
