import Scriptlet.Diagnostic

/-!
A source text falls into pieces, each the longest of its sort: tokens, what stands between
them, and what cannot be read. No character is lost.
-/

namespace Scriptlet

inductive PieceSort where
  | blank
  | newline
  | comment
  | token (kind : Kind) (literal : Option Literal)
  | unreadable (fault : Fault)
deriving DecidableEq, Repr

structure Piece where
  sort : PieceSort
  chars : List Char
deriving DecidableEq, Repr

def isBlank (c : Char) : Bool := c = ' ' || c = '\r' || c = '\t'

def isNameStart (c : Char) : Bool := c.isAlpha || c = '_'

def isNamePart (c : Char) : Bool := c.isAlphanum || c = '_'

/-- The rest of a block comment with `depth` levels still open, and what follows it; `none` if
a level stays open. The depth is counted in 32 bits, one of them for the sign, and wraps around. -/
def closeComment (depth : Int32) (cs : List Char) : Option (List Char × List Char) :=
  if depth ≤ 0 then some ([], cs)
  else
    match cs with
    | [] => none
    | '/' :: '*' :: cs =>
      (closeComment (depth + 1) cs).map fun (body, rest) => ('/' :: '*' :: body, rest)
    | '*' :: '/' :: cs =>
      (closeComment (depth - 1) cs).map fun (body, rest) => ('*' :: '/' :: body, rest)
    | c :: cs => (closeComment depth cs).map fun (body, rest) => (c :: body, rest)

def fractionPart : List Char → List Char × List Char
  | '.' :: cs =>
    if cs.head?.any Char.isDigit then (cs.takeWhile Char.isDigit, cs.dropWhile Char.isDigit)
    else ([], '.' :: cs)
  | cs => ([], cs)

namespace Piece

def number (c : Char) (cs : List Char) : Piece × List Char :=
  let whole := c :: cs.takeWhile Char.isDigit
  let (fraction, rest) := fractionPart (cs.dropWhile Char.isDigit)
  let value := (Decimal.ofDigits whole fraction).toFloat
  let chars := if fraction = [] then whole else whole ++ '.' :: fraction
  (⟨.token .number (some (.number value)), chars⟩, rest)

def word (c : Char) (cs : List Char) : Piece × List Char :=
  let chars := c :: cs.takeWhile isNamePart
  (⟨.token (Kind.ofWord (String.ofList chars)) none, chars⟩, cs.dropWhile isNamePart)

/-- The string after an opening quote; it runs to the next quote, over any newline. -/
def string (cs : List Char) : Piece × List Char :=
  let body := cs.takeWhile (· ≠ '"')
  match cs.dropWhile (· ≠ '"') with
  | [] => (⟨.unreadable .unterminatedString, '"' :: body⟩, [])
  | quote :: rest =>
    (⟨.token .string (some (.string (String.ofList body))), '"' :: body ++ [quote]⟩, rest)

def blockComment (cs : List Char) : Piece × List Char :=
  match closeComment 1 cs with
  | some (body, rest) => (⟨.comment, '/' :: '*' :: body⟩, rest)
  | none => (⟨.unreadable .unterminatedComment, '/' :: '*' :: cs⟩, [])

def operator (c : Char) (cs : List Char) : Piece × List Char :=
  match Kind.withEqual? c, cs with
  | some kind, '=' :: rest => (⟨.token kind none, [c, '=']⟩, rest)
  | _, _ =>
    match Kind.ofChar? c with
    | some kind => (⟨.token kind none, [c]⟩, cs)
    | none => (⟨.unreadable .unexpectedCharacter, [c]⟩, cs)

/-- What starts with a slash: one of the two comments, or the operator. -/
def slash : List Char → Piece × List Char
  | '*' :: cs => blockComment cs
  | '/' :: cs =>
    (⟨.comment, '/' :: '/' :: cs.takeWhile (· ≠ '\n')⟩, cs.dropWhile (· ≠ '\n'))
  | cs => operator '/' cs

/-- The first piece of `c :: cs` and what follows it. -/
def first (c : Char) (cs : List Char) : Piece × List Char :=
  if c = '\n' then (⟨.newline, [c]⟩, cs)
  else if isBlank c then (⟨.blank, c :: cs.takeWhile isBlank⟩, cs.dropWhile isBlank)
  else if c.isDigit then number c cs
  else if isNameStart c then word c cs
  else if c = '"' then string cs
  else if c = '/' then slash cs
  else operator c cs

end Piece

theorem closeComment_append {depth : Int32} {cs body rest : List Char}
    (closed : closeComment depth cs = some (body, rest)) : body ++ rest = cs := by
  fun_induction closeComment depth cs generalizing body rest with
  | case1 depth cs => cases closed; rfl
  | case2 => cases closed
  | case3 depth _ cs ih | case4 depth _ cs ih | case5 depth _ c cs _ _ ih =>
    obtain ⟨inner, hinner, heq⟩ := Option.map_eq_some_iff.mp closed
    cases heq
    simp [ih hinner]

namespace Piece

theorem number_append (c : Char) (cs : List Char) :
    (number c cs).1.chars ++ (number c cs).2 = c :: cs := by
  have whole := List.takeWhile_append_dropWhile (p := Char.isDigit) (l := cs)
  generalize hw : cs.takeWhile Char.isDigit = w at whole
  generalize hr : cs.dropWhile Char.isDigit = r at whole
  subst whole
  simp only [number, hw, hr]
  fun_cases fractionPart r with
  | case1 ds h => cases ds <;> simp_all
  | case2 => simp
  | case3 => simp

theorem word_append (c : Char) (cs : List Char) :
    (word c cs).1.chars ++ (word c cs).2 = c :: cs := by simp [word]

theorem string_append (cs : List Char) :
    (string cs).1.chars ++ (string cs).2 = '"' :: cs := by
  have h := List.takeWhile_append_dropWhile (p := fun c => decide (c ≠ '"')) (l := cs)
  unfold string
  split <;> rename_i he <;> rw [he] at h <;> simpa using h

theorem blockComment_append (cs : List Char) :
    (blockComment cs).1.chars ++ (blockComment cs).2 = '/' :: '*' :: cs := by
  unfold blockComment
  split
  · rename_i hc
    simp [closeComment_append hc]
  · simp

theorem operator_append (c : Char) (cs : List Char) :
    (operator c cs).1.chars ++ (operator c cs).2 = c :: cs := by
  unfold operator
  split
  · simp
  · split <;> simp

theorem slash_append (cs : List Char) : (slash cs).1.chars ++ (slash cs).2 = '/' :: cs := by
  unfold slash
  split
  · exact blockComment_append _
  · simp
  · exact operator_append '/' cs

theorem first_append (c : Char) (cs : List Char) :
    (first c cs).1.chars ++ (first c cs).2 = c :: cs := by
  unfold first
  split
  · simp
  split
  · simp
  split
  · exact number_append c cs
  split
  · exact word_append c cs
  split
  · rename_i quote; exact quote ▸ string_append cs
  split
  · rename_i isSlash; exact isSlash ▸ slash_append cs
  · exact operator_append c cs

theorem operator_chars_ne_nil (c : Char) (cs : List Char) : (operator c cs).1.chars ≠ [] := by
  unfold operator
  repeat' split
  all_goals simp

theorem first_chars_ne_nil (c : Char) (cs : List Char) : (first c cs).1.chars ≠ [] := by
  unfold first
  repeat' split
  · simp
  · simp
  · simp only [number]; split <;> simp
  · simp [word]
  · unfold string; split <;> simp
  · unfold slash; split
    · unfold blockComment; split <;> simp
    · simp
    · exact operator_chars_ne_nil '/' cs
  · exact operator_chars_ne_nil c cs

theorem first_length (c : Char) (cs : List Char) : (first c cs).2.length ≤ cs.length := by
  have h := congrArg List.length (first_append c cs)
  have pos := List.length_pos_iff.mpr (first_chars_ne_nil c cs)
  simp only [List.length_append, List.length_cons] at h
  omega

end Piece

end Scriptlet
