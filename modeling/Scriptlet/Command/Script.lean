import Scriptlet.Command.Session

namespace Scriptlet.Command

inductive ReadFault where
  | missing
  | directory
  | notText
  | other (reason : String)
deriving DecidableEq, Repr

def ReadFault.message : ReadFault → String
  | missing => "No such file or directory (os error 2)"
  | directory => "Is a directory (os error 21)"
  | notText => "stream did not contain valid UTF-8"
  | other reason => reason

def Session.Verdict.code : Session.Verdict → Nat
  | fine => success
  | rejected => badSource
  | failed => badRun

def decode (bytes : ByteArray) : Except ReadFault String :=
  match String.fromUTF8? bytes with
  | some source => .ok source
  | none => .error .notText

/-- Runs what was read from `path`. -/
def runScript (fuel : Nat) (view : View) (path : String) :
    Except ReadFault String → Run Session Nat
  | .ok source => do
    let verdict ← Session.feed view (Stmt.execAll fuel) source
    return verdict.code
  | .error fault => fun s => (.ok badInput, s.complain (path ++ ": " ++ fault.message))

end Scriptlet.Command
