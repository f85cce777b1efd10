import Scriptlet.Command.Arguments
import Scriptlet.Program
import Scriptlet.Syntax.Text
import Scriptlet.Run.Statement

/-!
Sessions: a machine whose sink is the standard output, together with the text on the standard
error. Source text is fed to a session, and it is rejected, fails or runs to its end.
-/

namespace Scriptlet.Command

def success : Nat := 0
def usageError : Nat := 2
def badSource : Nat := 65
def badRun : Nat := 70
def badInput : Nat := 74

/-- More turns than a loop can make in a lifetime. -/
def ample : Nat := 1 <<< 62

/-- The parts of a source text that the view asks for, a line each. -/
def View.listing (view : View) (source : String) (program : Program) : List String :=
  (if view.tokens then (scan source).tokens.map Token.text else []) ++
    if view.tree then program.statements.map Stmt.text else []

structure Session where
  machine : Machine
  complaints : String

namespace Session

def initial : Session := ⟨.initial, ""⟩

def complain (s : Session) (line : String) : Session :=
  { s with complaints := s.complaints ++ line ++ "\n" }

def list (s : Session) (lines : List String) : Session :=
  let sink := lines.foldl (fun sink line => sink.write (line ++ "\n")) s.machine.sink
  { s with machine := { s.machine with sink := sink } }

inductive Verdict where
  | fine
  | rejected
  | failed
deriving DecidableEq, Repr

def errorLines (e : RuntimeError) : List String :=
  e.message :: (e.line?.map fun line => "[line " ++ toString line ++ "]").toList

/-- Does a work on the machine, and complains if the program is in error. -/
def attempt (work : Run Machine Unit) : Run Session Verdict := fun s =>
  match work s.machine with
  | (.ok (), m) => (.ok .fine, { s with machine := m })
  | (.error (.error e), m) =>
    (.ok .failed, (errorLines e).foldl complain { s with machine := m })
  | (.error stop, m) => (.error stop, { s with machine := m })

/-- Lists of a source text what the view asks for, and then does with its statements what
`work` says, or complains if anything is wrong with the source. -/
def feed (view : View) (work : List Stmt → Run Machine Unit) (source : String) :
    Run Session Verdict := fun s =>
  let program := Program.ofSource source
  let s := s.list (view.listing source program)
  if program.diagnostics.isEmpty then attempt (work program.statements) s
  else (.ok .rejected, (program.diagnostics.map Diagnostic.text).foldl complain s)

end Session

/-- What a run of the command leaves behind; without a code it has not ended. -/
structure Transcript where
  code : Option Nat
  out : ByteArray
  err : String

def Transcript.ofRun (job : Run Session Nat) : Transcript :=
  let (code, s) := job .initial
  ⟨code.toOption, s.machine.sink.written, s.complaints⟩

end Scriptlet.Command
