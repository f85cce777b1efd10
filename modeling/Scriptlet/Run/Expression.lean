import Scriptlet.Run.Operator
import Scriptlet.Syntax.Basic
import Scriptlet.Env

namespace Scriptlet

namespace Env

def read (env : Env) (name : Token) : Except Stop Value :=
  match env.get? name.lexeme with
  | some v => .ok v
  | none => .error (.error (.undefinedVariable name.lexeme name.line))

/-- Assigns to a name that a token spells; without a binding nothing changes. -/
def write (name : Token) (v : Value) : Run Env Value := fun env =>
  match env.assign? name.lexeme v with
  | some env => (.ok v, env)
  | none => (.error (.error (.undefinedVariable name.lexeme name.line)), env)

end Env

def Expr.eval : Expr → Run Env Value
  | string s => pure (.string s)
  | number x => pure (.number x)
  | bool b => pure (.bool b)
  | nil => pure .nil
  | unary op operand => do
    let v ← operand.eval
    fun env => (Operator.unary op v, env)
  | binary op left right => do
    let v ← left.eval
    let w ← right.eval
    fun env => (Operator.binary op v w, env)
  | logical op left right => do
    let v ← left.eval
    if Operator.decides op v then pure v else right.eval
  | conditional condition yes no => do
    let v ← condition.eval
    if v.truthy then yes.eval else no.eval
  | group inner => inner.eval
  | var name => fun env => (env.read name, env)
  | assign name value => do
    let v ← value.eval
    Env.write name v

end Scriptlet
