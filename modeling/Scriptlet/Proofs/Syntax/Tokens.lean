import Mathlib.Logic.Embedding.Basic
import Scriptlet.Proofs.Syntax.Parts

namespace Scriptlet

variable (op name : Token → Token)

namespace Expr

def mapTokens : Expr → Expr
  | string s => .string s
  | number x => .number x
  | bool b => .bool b
  | nil => .nil
  | unary t operand => .unary (op t) operand.mapTokens
  | binary t left right => .binary (op t) left.mapTokens right.mapTokens
  | logical t left right => .logical (op t) left.mapTokens right.mapTokens
  | conditional condition yes no =>
    .conditional condition.mapTokens yes.mapTokens no.mapTokens
  | group inner => .group inner.mapTokens
  | var t => .var (name t)
  | assign t value => .assign (name t) value.mapTokens

end Expr

namespace Stmt

mutual

def mapTokens : Stmt → Stmt
  | .expression e => .expression (e.mapTokens op name)
  | .print e => .print (e.mapTokens op name)
  | .declare t none => .declare (name t) none
  | .declare t (some e) => .declare (name t) (some (e.mapTokens op name))
  | .block body => .block (mapTokensAll body)
  | .branch condition yes none =>
    .branch (condition.mapTokens op name) yes.mapTokens none
  | .branch condition yes (some no) =>
    .branch (condition.mapTokens op name) yes.mapTokens (some no.mapTokens)
  | .loop condition body => .loop (condition.mapTokens op name) body.mapTokens

def mapTokensAll : List Stmt → List Stmt
  | [] => []
  | s :: rest => s.mapTokens :: mapTokensAll rest

end

theorem mapTokensAll_eq_map (body : List Stmt) :
    mapTokensAll op name body = body.map (mapTokens op name) := by
  induction body with
  | nil => rfl
  | cons s rest ih => rw [mapTokensAll, ih, List.map_cons]

end Stmt

def Token.renamed (r : String ↪ String) (t : Token) : Token := { t with lexeme := r t.lexeme }

def Expr.renamed (r : String ↪ String) : Expr → Expr := mapTokens id (Token.renamed r)

/-- The statement with the variables that it declares, reads and assigns to renamed. -/
def Stmt.renamed (r : String ↪ String) : Stmt → Stmt := mapTokens id (Token.renamed r)

end Scriptlet
