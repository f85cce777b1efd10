import Scriptlet.Command.Interactive
import Scriptlet.Command.Script

namespace Scriptlet.Command

def readScript (path : String) : IO (Except ReadFault String) := do
  try
    return decode (← IO.FS.readBinFile path)
  catch
    | .noFileOrDirectory .. => return .error .missing
    | .inappropriateType .. => return .error .directory
    | e => return .error (.other (toString e))

partial def readInput (stream : IO.FS.Stream) (read : ByteArray) : IO ByteArray := do
  let chunk ← stream.read 65536
  if chunk.isEmpty then return read else readInput stream (read ++ chunk)

def deliver (job : Run Session Nat) : IO UInt32 := do
  let transcript := Transcript.ofRun job
  (← IO.getStdout).write transcript.out
  (← IO.getStderr).putStr transcript.err
  return (transcript.code.getD badRun).toUInt32

end Scriptlet.Command

open Scriptlet.Command in
def main (args : List String) : IO UInt32 := do
  if asksHelp args then
    (← IO.getStdout).putStr help
    return success.toUInt32
  match Request.ofArguments args with
  | .version =>
    (← IO.getStdout).putStr version
    return success.toUInt32
  | .usage =>
    (← IO.getStderr).putStr usage
    return usageError.toUInt32
  | .script path view => deliver (runScript ample view path (← readScript path))
  | .session view =>
    deliver (interact ample view (decodeLines (← readInput (← IO.getStdin) .empty)))
