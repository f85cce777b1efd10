import Scriptlet.Text.Cluster

/-! The editor that hands lines to a session. A backspace takes back a cluster of the line. -/

namespace Scriptlet.Command

inductive Reply where
  | line (text : String)
  | interrupted
  | failed (reason : String)
deriving DecidableEq, Repr

/-- A line as far as it is typed: its characters, the last first, and the sizes of the clusters
that can still be taken back, the last first. -/
structure Typing where
  chars : List Char
  sizes : List Nat

namespace Typing

def backspace : Char := '\x08'

/-- The size of a cluster in bytes, counted in one byte: a cluster of 256 bytes or more counts
for the remainder only. -/
def size (cluster : List Char) : Nat := (String.ofList cluster).utf8ByteSize % 256

/-- Takes `n` bytes of the first characters away, and no character in part. -/
def dropBytes (n : Nat) : List Char → List Char
  | [] => []
  | c :: cs => if c.utf8Size ≤ n then dropBytes (n - c.utf8Size) cs else c :: cs

def enter (t : Typing) (cluster : List Char) : Typing :=
  if cluster = [backspace] then
    match t.sizes with
    | [] => t
    | n :: sizes => ⟨dropBytes n t.chars, sizes⟩
  else ⟨cluster.reverse ++ t.chars, size cluster :: t.sizes⟩

def text (keys : String) : String :=
  String.ofList ((Text.clusters keys.toList).foldl enter ⟨[], []⟩).chars.reverse

end Typing

/-- The lines of an input. A newline ends a line, a carriage return directly before it goes
with it, and what stands after the last newline is a line too. -/
def lines : List UInt8 → List (List UInt8)
  | [] => []
  | 0x0a :: rest => [] :: lines rest
  | 0x0d :: 0x0a :: rest => [] :: lines rest
  | b :: rest =>
    match lines rest with
    | [] => [[b]]
    | line :: more => (b :: line) :: more

def decodeLine (line : List UInt8) : Reply :=
  match String.fromUTF8? line.toByteArray with
  | some keys => .line (Typing.text keys)
  | none => .failed
      "Io(Error \x7b kind: InvalidData, message: \"stream did not contain valid UTF-8\" \x7d)"

def decodeLines (input : ByteArray) : List Reply := (lines input.data.toList).map decodeLine

end Scriptlet.Command
