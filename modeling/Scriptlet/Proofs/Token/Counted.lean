import Scriptlet.Proofs.Token.Joined

namespace Scriptlet

open Piece

/-- The line on which a string ends, at its closing quote or with the text. -/
def lineOfString (line : Nat) : List Char → Nat
  | [] => line
  | '"' :: _ => line
  | '\n' :: cs => lineOfString (line + 1) cs
  | _ :: cs => lineOfString line cs

/-- The line on which a comment with `depth` levels open ends, where the last of them is closed or
with the text. -/
def lineOfComment (depth : Int32) (line : Nat) (cs : List Char) : Nat :=
  if depth ≤ 0 then line
  else
    match cs with
    | [] => line
    | '/' :: '*' :: cs => lineOfComment (depth + 1) line cs
    | '*' :: '/' :: cs => lineOfComment (depth - 1) line cs
    | '\n' :: cs => lineOfComment depth (line + 1) cs
    | _ :: cs => lineOfComment depth line cs

/-- The line behind the first piece of a text that starts on `line`. -/
def lineBehind (line : Nat) : List Char → Nat
  | '\n' :: _ => line + 1
  | '"' :: cs => lineOfString line cs
  | '/' :: '*' :: cs => lineOfComment 1 line cs
  | _ => line

/-- A piece by its place in the text, with the line that was reached behind it. -/
structure Mark where
  start : Nat
  stop : Nat
  line : Nat
  sort : PieceSort

namespace Mark

variable (text : List Char)

def piece (m : Mark) : Piece := ⟨m.sort, text.extract m.start m.stop⟩

def token? (m : Mark) : Option Token := Piece.token? (m.line, m.piece text)

def diagnostic? (m : Mark) : Option Diagnostic := Piece.diagnostic? (m.line, m.piece text)

end Mark

/-- All pieces in order, and the line on which the text ends; so many characters and lines are
before it. -/
def walk (start line : Nat) : List Char → List Mark × Nat
  | [] => ([], line)
  | c :: cs =>
    let found := first c cs
    let stop := start + found.1.chars.length
    let behind := lineBehind line (c :: cs)
    let (marks, last) := walk stop behind found.2
    (⟨start, stop, behind, found.1.sort⟩ :: marks, last)
termination_by cs => cs.length
decreasing_by exact Nat.lt_succ_of_le (first_length c cs)

section

variable {c : Char} (line : Nat) (cs : List Char)

theorem lineOfString_eq :
    lineOfString line cs = line + (cs.takeWhile (· ≠ '"')).count '\n' := by
  fun_induction lineOfString line cs with
  | case1 | case2 => simp
  | case3 line cs ih => rw [ih, List.takeWhile_cons_of_pos (by decide), List.count_cons_self]; omega
  | case4 line c cs quote newline ih =>
    have other : c ≠ '\n' := fun same => newline same
    rw [ih, List.takeWhile_cons_of_pos (by simpa using fun same => quote same),
      List.count_cons_of_ne other]

theorem lineOfComment_eq (depth : Int32) : lineOfComment depth line cs =
    line + ((closeComment depth cs).elim cs Prod.fst).count '\n' := by
  fun_induction lineOfComment depth line cs with
  | case1 depth line cs ended => rw [closeComment_ended ended]; rfl
  | case2 depth line going => rw [closeComment.eq_def, if_neg going]; rfl
  | case3 depth line going cs ih =>
    rw [ih, closeComment_opening going]
    cases closeComment _ cs <;> simp
  | case4 depth line going cs ih =>
    rw [ih, closeComment_closing going]
    cases closeComment _ cs <;> simp
  | case5 depth line going cs ih =>
    rw [ih, closeComment_other going (by simp) (by simp)]
    cases closeComment _ cs <;> simp [Nat.add_assoc, Nat.add_comm 1]
  | case6 depth line going c cs opens closes newline ih =>
    have noOpening : ¬ ['/', '*'] <+: c :: cs := by rintro ⟨_, ⟨⟩⟩; exact opens _ rfl rfl
    have noClosing : ¬ ['*', '/'] <+: c :: cs := by rintro ⟨_, ⟨⟩⟩; exact closes _ rfl rfl
    rw [ih, closeComment_other going noOpening noClosing]
    cases closeComment _ cs <;> simp [List.count_cons_of_ne fun same => newline same]

theorem newline_not_mem_operator (other : c ≠ '\n') : '\n' ∉ (operator c cs).1.chars := by
  unfold operator
  repeat' split
  all_goals simp [other.symm]

theorem newline_not_mem_number (digit : c.isDigit) : '\n' ∉ (number c cs).1.chars := by
  obtain ⟨literal, legal⟩ : ∃ literal,
      Lexeme .number literal (number c cs).1.chars (number c cs).2 := ⟨_, number_legal digit cs⟩
  generalize (number c cs).1.chars = chars at legal
  generalize (number c cs).2 = rest at legal
  intro member
  cases legal with
  | keyword known => exact absurd rfl (Kind.keyword_plain known).2.2
  | operator known => exact absurd rfl (Kind.operator_plain known).2.2
  | whole _ all => exact absurd (all _ member) (by decide)
  | fraction _ all _ each =>
    rcases List.mem_append.mp member with member | member
    · exact absurd (all _ member) (by decide)
    · exact absurd (each _ (by simpa using member)) (by decide)

theorem newline_not_mem_first (other : c ≠ '\n') (quote : c ≠ '"')
    (comment : c = '/' → '*' ∉ cs.head?) : '\n' ∉ (first c cs).1.chars := by
  unfold first
  rw [if_neg other, if_neg quote]
  split
  case isTrue =>
    intro member
    rcases List.mem_cons.mp member with same | member
    · exact other same.symm
    · exact absurd (List.mem_takeWhile_imp member) (by decide)
  split
  case isTrue digit => exact newline_not_mem_number cs digit
  split
  case isTrue =>
    intro member
    rcases List.mem_cons.mp member with same | member
    · exact other same.symm
    · exact absurd (List.mem_takeWhile_imp member) (by decide)
  split
  case isTrue same =>
    subst same
    fun_cases slash cs with
    | case1 => exact absurd rfl (comment rfl)
    | case2 cs => simpa using not_mem_takeWhile_ne '\n' cs
    | case3 => exact newline_not_mem_operator cs other
  case isFalse => exact newline_not_mem_operator cs other

theorem count_string : (string cs).1.chars.count '\n' =
    (cs.takeWhile (· ≠ '"')).count '\n' := by
  have stops := stops_dropWhile (· ≠ '"') cs
  unfold string
  split
  case h_1 => rfl
  case h_2 quote rest found =>
    obtain rfl : quote = '"' := by simpa using stops quote (by rw [found]; rfl)
    simp

theorem count_blockComment : (blockComment cs).1.chars.count '\n' =
    ((closeComment 1 cs).elim cs Prod.fst).count '\n' := by
  unfold blockComment
  split <;> rename_i closed <;> simp [closed]

theorem lineBehind_eq :
    lineBehind line (c :: cs) = line + (first c cs).1.chars.count '\n' := by
  generalize whole : c :: cs = text
  fun_cases lineBehind line text with
  | case1 cs => cases whole; rfl
  | case2 cs =>
    cases whole
    rw [lineOfString_eq, ← count_string]
    rfl
  | case3 cs =>
    cases whole
    rw [lineOfComment_eq, ← count_blockComment]
    rfl
  | case4 text newline quote comment =>
    subst whole
    have none : '\n' ∉ (first c cs).1.chars := by
      apply newline_not_mem_first
      · rintro rfl; exact newline _ rfl
      · rintro rfl; exact quote _ rfl
      · rintro rfl next
        obtain ⟨more, rfl⟩ := List.head?_eq_some_iff.mp next
        exact comment _ rfl
    rw [List.count_eq_zero.mpr none, Nat.add_zero]

theorem operator_of_unreadable {fault : Fault} :
    (operator c cs).1.sort = .unreadable fault →
      fault = .unexpectedCharacter ∧ (operator c cs).1.chars = [c] := by
  unfold operator
  split
  case h_1 => nofun
  split
  case h_1 => nofun
  case h_2 => rintro ⟨⟩; exact ⟨rfl, rfl⟩

theorem first_of_unreadable {fault : Fault} :
    (first c cs).1.sort = .unreadable fault →
      (fault = .unexpectedCharacter ∧ (first c cs).1.chars = [c]) ∨
        (fault = .unterminatedString ∨ fault = .unterminatedComment) ∧ (first c cs).2 = [] := by
  unfold first
  split
  case isTrue => rintro ⟨⟩
  split
  case isTrue => rintro ⟨⟩
  split
  case isTrue => rintro ⟨⟩
  split
  case isTrue => rintro ⟨⟩
  split
  case isTrue =>
    unfold string
    split
    case h_1 => rintro ⟨⟩; exact .inr ⟨.inl rfl, rfl⟩
    case h_2 => rintro ⟨⟩
  split
  case isTrue same =>
    subst same
    fun_cases slash cs with
    | case1 cs =>
      unfold blockComment
      split
      case h_1 => rintro ⟨⟩
      case h_2 => rintro ⟨⟩; exact .inr ⟨.inr rfl, rfl⟩
    | case2 => rintro ⟨⟩
    | case3 => exact fun sort => .inl (operator_of_unreadable cs sort)
  case isFalse => exact fun sort => .inl (operator_of_unreadable cs sort)

end

/-- The mark says where its piece is and on which line that ends. -/
structure Mark.Exact (text : List Char) (m : Mark) : Prop where
  within : m.start < m.stop ∧ m.stop ≤ text.length
  line : m.line = 1 + (text.take m.stop).count '\n'
  unexpected : m.sort = .unreadable .unexpectedCharacter →
    m.stop = m.start + 1 ∧ m.line = 1 + (text.take m.start).count '\n'
  unterminated : m.sort = .unreadable .unterminatedString ∨
    m.sort = .unreadable .unterminatedComment →
      m.stop = text.length ∧ m.line = 1 + text.count '\n'

section

variable (front : List Char)

theorem walk_cons (c : Char) (cs : List Char) :
    walk front.length (1 + front.count '\n') (c :: cs) =
      let p := (first c cs).1
      let behind := front ++ p.chars
      let others := walk behind.length (1 + behind.count '\n') (first c cs).2
      (⟨front.length, behind.length, 1 + behind.count '\n', p.sort⟩ :: others.1, others.2) := by
  rw [walk, lineBehind_eq, Nat.add_assoc, ← List.count_append, ← List.length_append]

theorem walk_nil (start line : Nat) : walk start line [] = ([], line) := by rw [walk]

theorem walk_ends (cs : List Char) : (walk front.length (1 + front.count '\n') cs).2 =
    1 + (front ++ cs).count '\n' := by
  fun_induction split cs generalizing front with
  | case1 => rw [walk_nil, List.append_nil]
  | case2 c cs found ih =>
    rw [walk_cons, ← first_append c cs, ← List.append_assoc]
    exact ih (front ++ found.1.chars)

theorem walk_numbered (cs : List Char) :
    (walk front.length (1 + front.count '\n') cs).1.map
        (fun m => (m.line, m.piece (front ++ cs))) =
      numbered (1 + front.count '\n') (split cs) := by
  fun_induction split cs generalizing front with
  | case1 => rw [walk_nil]; rfl
  | case2 c cs found ih =>
    have whole : front ++ c :: cs = front ++ found.1.chars ++ found.2 := by
      rw [List.append_assoc, ← first_append c cs]
    have here : (front ++ found.1.chars ++ found.2).extract front.length
        (front ++ found.1.chars).length = found.1.chars := by simp
    have others := ih (front ++ found.1.chars)
    rw [walk_cons, List.map_cons, whole, others, numbered, Mark.piece, here, Nat.add_assoc,
      List.count_append]

theorem exact_first (c : Char) (cs : List Char) :
    let p := (first c cs).1
    let behind := front ++ p.chars
    Mark.Exact (front ++ c :: cs) ⟨front.length, behind.length, 1 + behind.count '\n', p.sort⟩ := by
  have whole : front ++ c :: cs = front ++ (first c cs).1.chars ++ (first c cs).2 := by
    rw [List.append_assoc, ← first_append c cs]
  have some := List.length_pos_iff.mpr (first_chars_ne_nil c cs)
  rw [whole]
  refine ⟨?within, ?line, ?unexpected, ?unterminated⟩
  case within => simp only [List.length_append]; omega
  case line => rw [List.take_left]
  case unexpected =>
    intro sort
    have alone : (first c cs).1.chars = [c] := by
      rcases first_of_unreadable cs sort with ⟨_, alone⟩ | ⟨⟨⟨⟩⟩ | ⟨⟨⟩⟩, _⟩
      exact alone
    have other : c ≠ '\n' := by rintro rfl; cases sort
    rw [alone, List.append_assoc, List.take_left]
    simp [List.count_cons_of_ne other]
  case unterminated =>
    intro sort
    have ends : (first c cs).2 = [] := by
      rcases sort with sort | sort <;>
        rcases first_of_unreadable cs sort with ⟨⟨⟩, _⟩ | ⟨_, ends⟩ <;> exact ends
    rw [ends, List.append_nil]
    exact ⟨rfl, rfl⟩

theorem walk_exact (cs : List Char) :
    let marks := (walk front.length (1 + front.count '\n') cs).1
    (∀ m ∈ marks, front.length ≤ m.start ∧ m.Exact (front ++ cs)) ∧
      marks.Pairwise fun m n => m.stop ≤ n.start := by
  fun_induction split cs generalizing front with
  | case1 => rw [walk_nil]; exact ⟨List.forall_mem_nil _, .nil⟩
  | case2 c cs found ih =>
    obtain ⟨exact, ordered⟩ := ih (front ++ found.1.chars)
    rw [List.append_assoc, first_append] at exact
    have further : front.length ≤ (front ++ found.1.chars).length := by simp
    rw [walk_cons]
    constructor
    · rintro m (_ | ⟨_, member⟩)
      · exact ⟨Nat.le_refl _, exact_first front c cs⟩
      · exact ⟨Nat.le_trans further (exact m member).1, (exact m member).2⟩
    · exact .cons (fun m member => (exact m member).1) ordered

end

/-- The scan counts lines as a walk does, and its lines are exact: a piece ends on the line on which
the text has its end, so does a token, and the end mark stands on the last line. A character that
was not expected is on the line of the text before it; what is not closed runs to the last line. -/
theorem scan_counted (source : String) :
    let text := source.toList
    let marks := (walk 0 1 text).1
    let last := (walk 0 1 text).2
    scan source =
        ⟨marks.filterMap (Mark.token? text) ++ [.endAt last],
          marks.filterMap (Mark.diagnostic? text)⟩ ∧
      last = 1 + text.count '\n' ∧
      (marks.Pairwise fun m n => m.stop ≤ n.start) ∧
      ∀ m ∈ marks, m.Exact text := by
  intro text marks last
  have ends : last = 1 + text.count '\n' := walk_ends [] text
  have numbered : marks.map (fun m => (m.line, m.piece text)) = numbered 1 (split text) :=
    walk_numbered [] text
  obtain ⟨exact, ordered⟩ := walk_exact [] text
  refine ⟨?_, ends, ordered, fun m member => (exact m member).2⟩
  have tokens : (Piece.numbered 1 (split text)).filterMap Piece.token? =
      marks.filterMap (Mark.token? text) := by
    rw [← numbered, List.filterMap_map]; rfl
  have diagnostics : (Piece.numbered 1 (split text)).filterMap Piece.diagnostic? =
      marks.filterMap (Mark.diagnostic? text) := by
    rw [← numbered, List.filterMap_map]; rfl
  rw [scan, tokens, diagnostics, ends]

end Scriptlet
