import Scriptlet.Command.Script
import Scriptlet.Proofs.Run.Operators
import Scriptlet.Proofs.Run.Streams

/-!
What the command leaves behind after a script: the exit code, the standard output and the standard
error, for every content of the file and every view.
-/

namespace Scriptlet.Command

def unlines (lines : List String) : String := String.join (lines.map (· ++ "\n"))

theorem unlines_cons (line : String) (lines : List String) :
    unlines (line :: lines) = line ++ "\n" ++ unlines lines := String.join_cons

namespace Session

theorem foldl_write (written : ByteArray) (lines : List String) :
    lines.foldl (fun (sink : Sink) line => sink.write (line ++ "\n")) ⟨written, none⟩ =
      ⟨written ++ (unlines lines).toUTF8, none⟩ := by
  induction lines generalizing written with
  | nil => exact congrArg (Sink.mk · none) ByteArray.append_empty.symm
  | cons line lines ih =>
    have here : (Sink.mk written none).write (line ++ "\n") =
        ⟨written ++ (line ++ "\n").toUTF8, none⟩ := rfl
    rw [List.foldl_cons, here, ih, unlines_cons]
    simp only [String.toUTF8_eq_toByteArray, String.toByteArray_append, ByteArray.append_assoc]

theorem foldl_complain (s : Session) (lines : List String) :
    lines.foldl complain s = { s with complaints := s.complaints ++ unlines lines } := by
  induction lines generalizing s with
  | nil => simp [unlines]
  | cons line lines ih =>
    rw [List.foldl_cons, ih, unlines_cons]
    simp only [complain, String.append_assoc]

/-- The session at its start, with the listing of a source text on the standard output. -/
def listed (view : View) (source : String) : Session :=
  ⟨⟨.empty, ⟨(unlines (view.listing source (.ofSource source))).toUTF8, none⟩⟩, ""⟩

theorem feed_initial (view : View) (work : List Stmt → Run Machine Unit) (source : String) :
    feed view work source .initial =
      let program := Program.ofSource source
      if program.diagnostics.isEmpty then attempt (work program.statements) (listed view source)
      else (.ok .rejected, { listed view source with
        complaints := unlines (program.diagnostics.map Diagnostic.text) }) := by
  have start : initial.list (view.listing source (.ofSource source)) = listed view source := by
    unfold list
    rw [show initial.machine.sink = ⟨.empty, none⟩ from rfl, foldl_write, ByteArray.empty_append]
    rfl
  simp only [feed, start, foldl_complain]
  rfl

end Session

/-- What is left behind by a run with this result and this output. -/
def Transcript.ofResult (out : ByteArray) : Except Stop Unit → Transcript
  | .ok () => ⟨some success, out, ""⟩
  | .error (.error e) => ⟨some badRun, out, unlines (Session.errorLines e)⟩
  | .error _ => ⟨none, out, ""⟩

section

variable (fuel : Nat) (view : View) (path : String)

theorem decode_toUTF8 (source : String) : decode source.toUTF8 = .ok source := by
  rw [String.toUTF8_eq_toByteArray, decode, String.fromUTF8?, dif_pos source.isValidUTF8]
  rfl

theorem transcript_of_feed {source : String} {result : Except Stop Session.Verdict} {s : Session}
    (fed : Session.feed view (Stmt.execAll fuel) source .initial = (result, s)) :
    Transcript.ofRun (runScript fuel view path (.ok source)) =
      ⟨(result.map Session.Verdict.code).toOption, s.machine.sink.written, s.complaints⟩ := by
  simp only [Transcript.ofRun, runScript, Run.bind_apply, fed]
  cases result <;> rfl

theorem transcript_accepted {source : String} {result : Except Stop Unit} {final : Machine}
    (accepted : (Program.ofSource source).diagnostics = [])
    (ran : Stmt.execAll fuel (Program.ofSource source).statements .initial = (result, final)) :
    Transcript.ofRun (runScript fuel view path (.ok source)) =
      .ofResult ((unlines (view.listing source (.ofSource source))).toUTF8 ++ final.sink.written)
        result := by
  have fed := Session.feed_initial view (Stmt.execAll fuel) source
  simp only [accepted, List.isEmpty_nil, if_true] at fed
  obtain ⟨result', after, out, _, streams⟩ :=
    Stmt.streams_execAll fuel (Program.ofSource source).statements .empty
  have here := streams .empty
  rw [ByteArray.empty_append] at here
  cases ran.symm.trans here
  rw [Session.attempt, Session.listed, streams] at fed
  rcases result with stop | ⟨⟩
  · cases stop with
    | error e =>
      simp only [Session.foldl_complain, String.empty_append] at fed
      exact transcript_of_feed fuel view path fed
    | stuck | unfinished => exact transcript_of_feed fuel view path fed
  · exact transcript_of_feed fuel view path fed

theorem unlines_listing (source : String) :
    (unlines (View.listing ⟨false, false⟩ source (.ofSource source))).toUTF8 = .empty := rfl

end

end Scriptlet.Command
