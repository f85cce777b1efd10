import Scriptlet.Token.Piece

namespace Scriptlet

namespace Piece

def split : List Char → List Piece
  | [] => []
  | c :: cs =>
    let found := first c cs
    found.1 :: split found.2
termination_by cs => cs.length
decreasing_by exact Nat.lt_succ_of_le (first_length c cs)

/-- Each piece with the line on which it ends, if the text starts on `line`. -/
def numbered (line : Nat) : List Piece → List (Nat × Piece)
  | [] => []
  | p :: ps =>
    let last := line + p.chars.count '\n'
    (last, p) :: numbered last ps

def token? : Nat × Piece → Option Token
  | (line, ⟨.token kind literal, chars⟩) => some ⟨kind, String.ofList chars, literal, line⟩
  | _ => none

def diagnostic? : Nat × Piece → Option Diagnostic
  | (line, ⟨.unreadable fault, _⟩) => some ⟨line, .nowhere, fault⟩
  | _ => none

theorem split_nil : split [] = [] := by simp [split]

theorem split_cons (c : Char) (cs : List Char) :
    split (c :: cs) = (first c cs).1 :: split (first c cs).2 := by rw [split]

/-- The pieces put together are the source text. -/
theorem flatMap_chars_split (cs : List Char) : (split cs).flatMap Piece.chars = cs := by
  fun_induction split cs with
  | case1 => rfl
  | case2 c cs found ih => rw [List.flatMap_cons, ih, first_append]

end Piece

structure Scan where
  tokens : List Token
  diagnostics : List Diagnostic
deriving DecidableEq, Repr

def scan (source : String) : Scan :=
  let chars := source.toList
  let pieces := Piece.numbered 1 (Piece.split chars)
  ⟨pieces.filterMap Piece.token? ++ [Token.endAt (1 + chars.count '\n')],
    pieces.filterMap Piece.diagnostic?⟩

end Scriptlet
