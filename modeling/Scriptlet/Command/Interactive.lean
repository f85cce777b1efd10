import Scriptlet.Command.Editor
import Scriptlet.Command.Session

namespace Scriptlet.Command

/-- A lone expression prints its value; all else just runs. -/
def enter (fuel : Nat) : List Stmt → Run Machine Unit
  | [.expression e] => do
    let v ← Machine.onEnv e.eval
    Machine.printLine v.text
  | statements => Stmt.execAll fuel statements

/-- Feeds lines to the session until there is none left or the editor replies otherwise. -/
def interact (fuel : Nat) (view : View) : List Reply → Run Session Nat
  | [] => pure success
  | .interrupted :: _ => fun s => (.ok success, s.list ["CTRL-C"])
  | .failed reason :: _ => fun s => (.ok badInput, s.complain ("Error: " ++ reason))
  | .line text :: rest => do
    let _ ← Session.feed view (enter fuel) text
    interact fuel view rest

end Scriptlet.Command
