import Scriptlet.Proofs.Token.Joined
import Scriptlet.Proofs.Token.Layout
import Mathlib.Data.List.Forall2

namespace Scriptlet

open Piece

/-- A space in place of any character but a newline. -/
def blank (c : Char) : Char := if c = '\n' then c else ' '

/-- The text of a piece, blank unless it is the lexeme of a token. -/
def Piece.blanked : Piece → List Char
  | ⟨.token _ _, chars⟩ => chars
  | ⟨_, chars⟩ => chars.map blank

/-- The text with blanks for each character that is in no lexeme. -/
def blanked (source : String) : String :=
  String.ofList ((split source.toList).flatMap Piece.blanked)

theorem blank_cases (c : Char) : blank c = ' ' ∨ blank c = '\n' := by
  unfold blank
  split
  case isTrue line => exact .inr line
  case isFalse => exact .inl rfl

theorem count_map_blank (cs : List Char) : (cs.map blank).count '\n' = cs.count '\n' := by
  have same : ∀ c, (blank c == '\n') = (c == '\n') := by
    intro c
    by_cases line : c = '\n' <;> simp [blank, line]
  simp only [List.count_eq_countP, List.countP_map, Function.comp_def, same]

/-- The second text is the first, blank in some places. -/
def PartlyBlank (rest blankRest : List Char) : Prop :=
  List.Forall₂ (fun c d => d = c ∨ d = ' ' ∨ d = '\n') rest blankRest

section

variable {rest blankRest : List Char}

theorem PartlyBlank.refl (rest : List Char) : PartlyBlank rest rest :=
  List.forall₂_same.mpr fun _ _ => .inl rfl

theorem PartlyBlank.append {text blankText : List Char} (front : PartlyBlank text blankText)
    (back : PartlyBlank rest blankRest) :
    PartlyBlank (text ++ rest) (blankText ++ blankRest) := List.rel_append front back

theorem partlyBlank_map (cs : List Char) : PartlyBlank cs (cs.map blank) := by
  rw [PartlyBlank, List.forall₂_map_right_iff]
  exact List.forall₂_same.mpr fun c _ => .inr (blank_cases c)

theorem PartlyBlank.head (partly : PartlyBlank rest blankRest) :
    ∀ d ∈ blankRest.head?, d ∈ rest.head? ∨ d = ' ' ∨ d = '\n' := by
  cases partly with
  | nil => simp
  | cons same _ =>
    rintro d ⟨⟩
    rcases same with rfl | blank
    · exact .inl rfl
    · exact .inr blank

theorem Stops.partlyBlank {p : Char → Bool} (stops : Stops p rest)
    (partly : PartlyBlank rest blankRest) (space : p ' ' = false) (line : p '\n' = false) :
    Stops p blankRest := by
  intro d next
  rcases partly.head d next with next | rfl | rfl
  · exact stops d next
  · exact space
  · exact line

theorem Kind.operators_nonblank {chars : List Char} {kind : Kind}
    (known : (chars, kind) ∈ operators) : ' ' ∉ chars ∧ '\n' ∉ chars := by
  have all : ∀ entry ∈ operators, ' ' ∉ entry.1 ∧ '\n' ∉ entry.1 := by decide
  exact all _ known

theorem Longest.partlyBlank {chars : List Char} (longest : Longest chars rest)
    (partly : PartlyBlank rest blankRest) : Longest chars blankRest := by
  constructor
  · intro d next kind known
    obtain ⟨space, line⟩ := Kind.operators_nonblank known
    rcases partly.head d next with next | rfl | rfl
    · exact longest.operator d next kind known
    · simp at space
    · simp at line
  · intro d next
    rcases partly.head d next with next | blank
    · exact longest.comment d next
    · have last : ∀ e, chars ++ [d] = ['/', e] → d = e := fun e same => by
        simpa using congrArg List.getLast? same
      constructor <;> intro same <;> rw [last _ same] at blank <;> simp at blank

theorem Lexeme.partlyBlank {kind : Kind} {literal : Option Literal} {text : List Char}
    (lexeme : Lexeme kind literal text rest) (partly : PartlyBlank rest blankRest) :
    Lexeme kind literal text blankRest := by
  cases lexeme with
  | name letter parts unknown stops =>
    exact .name letter parts unknown (stops.partlyBlank partly (by decide) (by decide))
  | keyword known stops => exact .keyword known (stops.partlyBlank partly (by decide) (by decide))
  | whole some all stops point =>
    refine .whole some all (stops.partlyBlank partly (by decide) (by decide)) ?_
    rintro d ⟨more, rfl⟩
    -- A point that is followed by a digit was so before, as neither of them is blank.
    obtain ⟨c, behind, first, others, rfl⟩ := List.forall₂_cons_right_iff.mp partly
    obtain ⟨e, _, second, _, rfl⟩ := List.forall₂_cons_right_iff.mp others
    obtain rfl : '.' = c := by simpa using first
    rcases second with rfl | rfl | rfl
    · exact point d ⟨_, rfl⟩
    · decide
    · decide
  | fraction some all more each stops =>
    exact .fraction some all more each (stops.partlyBlank partly (by decide) (by decide))
  | string inside => exact .string inside
  | operator known longest => exact .operator known (longest.partlyBlank partly)

theorem Gap.of_map_blank {ends : List Nat} (cs rest : List Char) :
    Gap ends (cs.map blank) rest := by
  induction cs with
  | nil => exact .nil
  | cons c cs ih =>
    have filler : Filler ends [blank c] (cs.map blank ++ rest) := by
      rcases blank_cases c with space | line
      · rw [space]; exact .blank rfl
      · rw [line]; exact .newline
    exact .cons filler ih

end

namespace Layout

variable {l : Layout}

def blanked (l : Layout) : Layout :=
  ⟨l.words.map fun w => { w with gap := w.gap.map blank }, l.last.map blank⟩

def between (l : Layout) : List Char := l.words.flatMap Word.gap ++ l.last

theorem partlyBlank_blanked (l : Layout) : PartlyBlank l.chars l.blanked.chars := by
  obtain ⟨words, last⟩ := l
  induction words with
  | nil => exact partlyBlank_map last
  | cons w words ih =>
    have behind : PartlyBlank (chars ⟨words, last⟩) (blanked ⟨words, last⟩).chars := ih
    rw [chars_word, blanked, List.map_cons, chars_word]
    exact (partlyBlank_map w.gap).append ((PartlyBlank.refl w.lexeme).append behind)

theorem Valid.blanked {ends : List Nat} (valid : l.Valid ends) : l.blanked.Valid ends := by
  induction valid with
  | last => exact .last (Gap.of_map_blank _ _)
  | word _ lexeme _ ih =>
    exact .word (Gap.of_map_blank _ _) (lexeme.partlyBlank (partlyBlank_blanked _)) ih

theorem tokensFrom_blanked (line : Nat) (l : Layout) :
    tokensFrom line l.blanked.words = tokensFrom line l.words := by
  obtain ⟨words, last⟩ := l
  induction words generalizing line with
  | nil => rfl
  | cons w words ih =>
    have lines : (w.gap.map blank ++ w.lexeme).count '\n' = (w.gap ++ w.lexeme).count '\n' := by
      simp only [List.count_append, count_map_blank]
    have behind := ih (line + (w.gap ++ w.lexeme).count '\n')
    simp only [Layout.blanked, List.map_cons, tokensFrom, lines] at behind ⊢
    rw [behind]

theorem count_blanked (l : Layout) : l.blanked.chars.count '\n' = l.chars.count '\n' := by
  obtain ⟨words, last⟩ := l
  induction words with
  | nil => exact count_map_blank last
  | cons w words ih =>
    simp only [Layout.blanked, List.map_cons, chars_word, List.count_append,
      count_map_blank] at ih ⊢
    rw [ih]

theorem between_blanked (l : Layout) : l.blanked.between = l.between.map blank := by
  simp only [between, blanked, List.map_append, List.map_flatMap, List.flatMap_map]

theorem blanked_before (text : List Char) (l : Layout) :
    (l.before text).blanked = l.blanked.before (text.map blank) := by
  obtain ⟨_ | ⟨w, words⟩, last⟩ := l <;> simp [before, blanked]

theorem between_before (text : List Char) (l : Layout) :
    (l.before text).between = text ++ l.between := by
  obtain ⟨_ | ⟨w, words⟩, last⟩ := l <;> simp [before, between]

theorem chars_blanked_ofPieces (pieces : List Piece) :
    (ofPieces pieces).blanked.chars = pieces.flatMap Piece.blanked := by
  fun_induction ofPieces pieces with
  | case1 => rfl
  | case2 kind literal chars pieces ih =>
    rw [List.flatMap_cons, ← ih, blanked, List.map_cons, chars_word]
    rfl
  | case3 sort chars pieces other ih =>
    have whole : Piece.blanked ⟨sort, chars⟩ = chars.map blank := by
      cases sort with
      | token kind literal => exact absurd rfl (other kind literal)
      | _ => rfl
    rw [List.flatMap_cons, whole, ← ih, blanked_before, chars_before]

theorem subset_between {pieces : List Piece} {p : Piece} (member : p ∈ pieces)
    (other : ∀ kind literal, p.sort ≠ .token kind literal) :
    p.chars ⊆ (ofPieces pieces).between := by
  fun_induction ofPieces pieces with
  | case1 => cases member
  | case2 kind literal chars pieces ih =>
    rcases List.mem_cons.mp member with rfl | member
    · exact absurd rfl (other kind literal)
    · simpa [between] using ih member
  | case3 sort chars pieces _ ih =>
    rw [between_before]
    rcases List.mem_cons.mp member with rfl | member
    · exact List.subset_append_left _ _
    · exact List.subset_append_of_subset_right _ (ih member)

end Layout

open Layout

theorem Piece.head_first_of_unreadable {c : Char} {cs : List Char} {fault : Fault}
    (unreadable : (first c cs).1.sort = .unreadable fault) :
    c ∈ (first c cs).1.chars ∧ c ≠ '\n' ∧ c ≠ ' ' := by
  have whole := first_append c cs
  obtain ⟨d, more, chars⟩ := List.exists_cons_of_ne_nil (first_chars_ne_nil c cs)
  rw [chars, List.cons_append] at whole
  obtain rfl := (List.cons.inj whole).1
  refine ⟨by simp [chars], ?_, ?_⟩
  · rintro rfl; cases unreadable
  · rintro rfl; rw [first_blank cs rfl] at unreadable; cases unreadable

theorem Piece.exists_nonblank {cs : List Char} {p : Piece} (member : p ∈ split cs) {fault : Fault}
    (unreadable : p.sort = .unreadable fault) : ∃ c ∈ p.chars, c ≠ '\n' ∧ c ≠ ' ' := by
  fun_induction split cs with
  | case1 => cases member
  | case2 c cs found ih =>
    rcases List.mem_cons.mp member with rfl | member
    · exact ⟨c, head_first_of_unreadable unreadable⟩
    · exact ih member

theorem find_blanked (source : String) :
    find (blanked source).toList = (find source.toList).blanked := by
  have valid := (find_follows source.toList).2.blanked
  rw [blanked, String.toList_ofList, ← chars_blanked_ofPieces]
  exact find_of_valid valid

theorem diagnostics_blanked (source : String) : (scan (blanked source)).diagnostics = [] := by
  rw [scan, List.filterMap_eq_nil_iff]
  rintro ⟨line, p⟩ numbered
  have member : p ∈ split (blanked source).toList :=
    map_snd_numbered 1 (split (blanked source).toList) ▸ List.mem_map_of_mem numbered
  cases sort : p.sort with
  | unreadable fault =>
    obtain ⟨c, inside, line, space⟩ := exists_nonblank member sort
    have gap := subset_between member (by simp [sort]) inside
    rw [← find, find_blanked, between_blanked] at gap
    obtain ⟨d, _, rfl⟩ := List.mem_map.mp gap
    exact (blank_cases d).elim (absurd · space) (absurd · line)
  | _ =>
    obtain ⟨_, chars⟩ := p
    cases sort
    rfl

/-- A source text falls into the lexemes of its tokens and the gaps between them. With each gap
made blank it has the same tokens, its end mark and all lines included, and no diagnostic is
left. -/
theorem scan_blanked (source : String) :
    (∃ l : Layout, (l.chars = source.toList ∧ l.Valid commentEnds) ∧
      (scan source).tokens = l.tokens ++ [Token.endAt (1 + source.toList.count '\n')] ∧
      (blanked source).toList = l.blanked.chars) ∧
    scan (blanked source) = ⟨(scan source).tokens, []⟩ := by
  have tokens : (scan (blanked source)).tokens = (scan source).tokens := by
    have layout := tokensFrom_blanked 1 (find source.toList)
    have lines := count_blanked (find source.toList)
    rw [← find_blanked, (find_follows _).1, (find_follows _).1] at lines
    rw [tokens_scan, tokens_scan, Layout.tokens, find_blanked, layout, lines]
    rfl
  constructor
  · refine ⟨find source.toList, find_follows _, tokens_scan source, ?_⟩
    rw [← find_blanked, (find_follows _).1]
  · rw [← tokens, ← diagnostics_blanked source]

example : blanked "a/**/b=@=" = "a    b= =" := by cbv

end Scriptlet
