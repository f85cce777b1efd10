import Scriptlet.Run.Expression

/-!
Execution of statements on an environment and a sink. A loop may turn as often as the fuel
says and then leaves the run unfinished, with all that it has done so far.
-/

namespace Scriptlet

/-- Where printed text goes: bytes, up to a limit if there is one. -/
structure Sink where
  written : ByteArray
  limit : Option Nat

namespace Sink

def unlimited : Sink := ⟨.empty, none⟩

def fits (sink : Sink) (n : Nat) : Bool := sink.limit.all (sink.written.size + n ≤ ·)

/-- Appends the text, or as many of its bytes as fit. -/
def write (sink : Sink) (text : String) : Sink :=
  let bytes := text.toUTF8
  let kept :=
    match sink.limit with
    | none => bytes
    | some limit => bytes.extract 0 (limit - sink.written.size)
  { sink with written := sink.written ++ kept }

end Sink

structure Machine where
  env : Env
  sink : Sink

namespace Machine

def initial : Machine := ⟨.empty, .unlimited⟩

def onEnv (m : Run Env α) : Run Machine α := fun s =>
  let (result, env) := m s.env
  (result, { s with env := env })

/-- Prints a line. If the sink is full before its end, the first part is printed. -/
def printLine (text : String) : Run Machine Unit := fun s =>
  let line := text ++ "\n"
  let result := if s.sink.fits line.utf8ByteSize then .ok () else .error (.error .sinkFull)
  (result, { s with sink := s.sink.write line })

def define (x : String) (v : Value) : Run Machine Unit := fun s =>
  (.ok (), { s with env := s.env.define x v })

/-- Runs in a scope of its own, which is left however the run ends. -/
def inScope (m : Run Machine Unit) : Run Machine Unit := fun s =>
  let (result, t) := m { s with env := s.env.enter }
  (result, { t with env := t.env.exit })

/-- Turns while the test holds, at most `fuel` times. -/
def turn (test : Run Machine Value) (body : Run Machine Unit) : (fuel : Nat) → Run Machine Unit
  | 0, s => (.error .unfinished, s)
  | fuel + 1, s =>
    match test s with
    | (.error stop, s) => (.error stop, s)
    | (.ok v, s) =>
      if v.truthy then
        match body s with
        | (.error stop, s) => (.error stop, s)
        | (.ok (), s) => turn test body fuel s
      else (.ok (), s)

end Machine

open Machine

mutual

def Stmt.exec (fuel : Nat) : Stmt → Run Machine Unit
  | .expression e => do
    let _ ← onEnv e.eval
  | .print e => do
    let v ← onEnv e.eval
    printLine v.text
  | .declare name (some e) => do
    let v ← onEnv e.eval
    define name.lexeme v
  | .declare name none => define name.lexeme .nil
  | .block body => inScope (Stmt.execAll fuel body)
  | .branch condition yes no => do
    let v ← onEnv condition.eval
    if v.truthy then yes.exec fuel
    else
      match no with
      | some no => no.exec fuel
      | none => pure ()
  | .loop condition body => turn (onEnv condition.eval) (body.exec fuel) fuel

def Stmt.execAll (fuel : Nat) : List Stmt → Run Machine Unit
  | [] => pure ()
  | s :: rest => do
    s.exec fuel
    Stmt.execAll fuel rest

end

end Scriptlet
