import Scriptlet.Text.GraphemeExtend
import Scriptlet.Text.Invisible

/-!
Quoted text: between double quotes, with every character that could not be told from its
neighbours or could not be seen written as an escape.
-/

namespace Scriptlet.Text

/-- The halfwidth Katakana sound marks. They extend the letter before them, yet are letters
themselves, not marks: each is written in a place of its own. -/
def soundMarks : Array (Nat × Nat) := #[(0xff9e, 0xff9f)]

/-- A character that attaches to the one before it and has no place of its own. -/
def attaches (c : Char) : Bool :=
  inRanges c graphemeExtend && !inRanges c soundMarks

/-- A character that stands alone and leaves a mark. -/
def isVisible (c : Char) : Bool :=
  if c.toNat < 0x7f then 0x20 ≤ c.toNat
  else !attaches c && !inRanges c invisible

namespace Quoted

def escape (c : Char) : List Char :=
  match c with
  | '\x00' => ['\\', '0']
  | '\t' => ['\\', 't']
  | '\r' => ['\\', 'r']
  | '\n' => ['\\', 'n']
  | '"' => ['\\', '"']
  | '\\' => ['\\', '\\']
  | c => if isVisible c then [c] else ['\\', 'u', '{'] ++ Nat.toDigits 16 c.toNat ++ ['}']

def encode (s : List Char) : List Char := '"' :: s.flatMap escape ++ ['"']

end Quoted

def quoted (s : String) : String := String.ofList (Quoted.encode s.toList)

end Scriptlet.Text
