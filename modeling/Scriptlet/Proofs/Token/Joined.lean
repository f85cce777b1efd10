import Scriptlet.Program
import Scriptlet.Proofs.Syntax.Respelling
import Scriptlet.Proofs.Token.Munch

/-!
Scanning two texts with something between them that is no token. A boundary ends every piece of
the first text but an open string or comment, so the tokens and the faults of the whole are those
of the first text and then, further down, those of the second.
-/

namespace Scriptlet

/-- A character that goes on with no number, no name and no operator but a slash. -/
structure Boundary (d : Char) : Prop where
  digit : d.isDigit = false
  point : d ≠ '.'
  part : isNamePart d = false
  equal : d ≠ '='

section

variable {p : Char → Bool} {d : Char} {cs : List Char}

theorem takeWhile_before (ends : cs.dropWhile p = [] → p d = false) (more : List Char) :
    (cs ++ d :: more).takeWhile p = cs.takeWhile p := by
  induction cs with
  | nil => simp [ends rfl]
  | cons c cs ih =>
    by_cases inside : p c
    · rw [List.dropWhile_cons_of_pos inside] at ends
      simp [inside, ih ends]
    · simp [inside]

theorem dropWhile_before (ends : cs.dropWhile p = [] → p d = false) (more : List Char) :
    (cs ++ d :: more).dropWhile p = cs.dropWhile p ++ d :: more := by
  induction cs with
  | nil => simp [ends rfl]
  | cons c cs ih =>
    by_cases inside : p c
    · rw [List.dropWhile_cons_of_pos inside] at ends
      simp [inside, ih ends]
    · simp [inside]

end

theorem closeComment_before {cs body rest : List Char}
    (closed : closeComment 1 cs = some (body, rest)) (more : List Char) :
    closeComment 1 (cs ++ more) = some (body, rest ++ more) := by
  have reaches : Reaches commentEnds 1 body := reaches_of_closeComment closed (by decide)
  rw [← closeComment_append closed, List.append_assoc]
  exact closeComment_of_reaches reaches (by decide) _

theorem fractionPart_before {d : Char} (boundary : Boundary d) (cs more : List Char) :
    fractionPart (cs ++ d :: more) = ((fractionPart cs).1, (fractionPart cs).2 ++ d :: more) := by
  fun_cases fractionPart cs with
  | case1 cs starts =>
    obtain ⟨c, cs, rfl⟩ : ∃ c tail, cs = c :: tail := List.ne_nil_iff_exists_cons.mp (by
      rintro rfl; simp at starts)
    rw [List.cons_append, fractionPart, if_pos (by simpa using starts),
      takeWhile_before fun _ => boundary.digit, dropWhile_before fun _ => boundary.digit]
  | case2 cs starts =>
    have still : ¬ (cs ++ d :: more).head?.any Char.isDigit := by
      cases cs with
      | nil => simp [boundary.digit]
      | cons c cs => simpa using starts
    rw [List.cons_append, fractionPart, if_neg still]
  | case3 cs other =>
    cases cs with
    | nil => rw [List.nil_append, fractionPart]; rintro cs ⟨⟩; exact boundary.point rfl
    | cons c cs => rw [List.cons_append, fractionPart]; rintro cs ⟨⟩; exact other _ rfl

namespace Piece

/-- No piece that runs to the end of the text for want of its closing mark. -/
def Closed (p : Piece) : Prop :=
  p.sort ≠ .unreadable .unterminatedString ∧ p.sort ≠ .unreadable .unterminatedComment

def IsLineComment (p : Piece) : Prop := p.sort = .comment ∧ ['/', '/'] <+: p.chars

/-- The last piece of a text is not changed by `d` behind it. -/
structure EndsAt (d : Char) (p : Piece) : Prop where
  line : p.IsLineComment → d = '\n'
  slash : p.sort = .token .slash none → d ≠ '/' ∧ d ≠ '*'

variable {c d : Char} {cs : List Char}

theorem number_before (boundary : Boundary d) (more : List Char) :
    number c (cs ++ d :: more) = ((number c cs).1, (number c cs).2 ++ d :: more) := by
  simp only [number, takeWhile_before fun _ => boundary.digit,
    dropWhile_before fun _ => boundary.digit, fractionPart_before boundary]

theorem word_before (boundary : Boundary d) (more : List Char) :
    word c (cs ++ d :: more) = ((word c cs).1, (word c cs).2 ++ d :: more) := by
  simp only [word, takeWhile_before fun _ => boundary.part, dropWhile_before fun _ => boundary.part]

theorem string_before (closed : (string cs).1.Closed) (more : List Char) :
    string (cs ++ more) = ((string cs).1, (string cs).2 ++ more) := by
  unfold string at closed ⊢
  split at closed
  case h_1 => exact absurd rfl closed.1
  case h_2 quote rest found =>
    have length : (cs.takeWhile (· ≠ '"')).length ≠ cs.length := by
      have whole := congrArg List.length (cs.takeWhile_append_dropWhile (p := (· ≠ '"')))
      rw [found, List.length_append, List.length_cons] at whole
      omega
    simp only [List.takeWhile_append, List.dropWhile_append, found, if_neg length,
      List.isEmpty_cons, Bool.false_eq_true, if_false, List.cons_append]

theorem blockComment_before (closed : (blockComment cs).1.Closed) (more : List Char) :
    blockComment (cs ++ more) = ((blockComment cs).1, (blockComment cs).2 ++ more) := by
  unfold blockComment at closed ⊢
  split at closed
  case h_1 body rest found => simp only [closeComment_before found]
  case h_2 => exact absurd rfl closed.2

theorem operator_before (boundary : Boundary d) (more : List Char) :
    operator c (cs ++ d :: more) = ((operator c cs).1, (operator c cs).2 ++ d :: more) := by
  unfold operator
  cases cs with
  | nil =>
    cases Kind.withEqual? c <;> cases Kind.ofChar? c <;> simp [boundary.equal]
  | cons e cs =>
    by_cases joins : e = '='
    · subst joins
      cases Kind.withEqual? c <;> cases Kind.ofChar? c <;> rfl
    · cases Kind.withEqual? c <;> cases Kind.ofChar? c <;> simp [joins]

theorem slash_before (boundary : Boundary d) (closed : (slash cs).1.Closed)
    (ends : (slash cs).2 = [] → (slash cs).1.EndsAt d) (more : List Char) :
    slash (cs ++ d :: more) = ((slash cs).1, (slash cs).2 ++ d :: more) := by
  fun_cases slash cs with
  | case1 cs => exact blockComment_before closed _
  | case2 cs =>
    have stops : cs.dropWhile (· ≠ '\n') = [] → decide (d ≠ '\n') = false := fun none => by
      simpa using (ends none).line ⟨rfl, ⟨_, rfl⟩⟩
    simp only [List.cons_append, slash, takeWhile_before stops, dropWhile_before stops]
  | case3 cs star line =>
    have alone : slash (cs ++ d :: more) = operator '/' (cs ++ d :: more) := by
      cases cs with
      | nil =>
        obtain ⟨slash, star⟩ := (ends rfl).slash rfl
        apply slash_other <;> rintro ⟨⟩
        · exact star rfl
        · exact slash rfl
      | cons e cs =>
        apply slash_other <;> rintro ⟨⟩
        · exact star _ rfl
        · exact line _ rfl
    rw [alone]
    exact operator_before boundary more

theorem first_before (boundary : Boundary d) (nonblank : isBlank c = false)
    (closed : (first c cs).1.Closed) (ends : (first c cs).2 = [] → (first c cs).1.EndsAt d)
    (more : List Char) :
    first c (cs ++ d :: more) = ((first c cs).1, (first c cs).2 ++ d :: more) := by
  unfold first at closed ends ⊢
  rw [nonblank] at closed ends ⊢
  split
  case isTrue => rfl
  case isFalse line =>
  rw [if_neg line, if_neg Bool.false_ne_true] at closed ends
  rw [if_neg Bool.false_ne_true, if_neg Bool.false_ne_true]
  split
  case isTrue => exact number_before boundary more
  case isFalse digit =>
  rw [if_neg digit] at closed ends
  split
  case isTrue => exact word_before boundary more
  case isFalse word =>
  rw [if_neg word] at closed ends
  split
  case isTrue quote => rw [if_pos quote] at closed; exact string_before closed _
  case isFalse quote =>
  rw [if_neg quote] at closed ends
  split
  case isTrue isSlash =>
    rw [if_pos isSlash] at closed ends
    exact slash_before boundary closed ends more
  case isFalse => exact operator_before boundary more

theorem numbered_add (line n : Nat) (ps : List Piece) :
    numbered (line + n) ps = (numbered line ps).map fun (last, p) => (last + n, p) := by
  induction ps generalizing line with
  | nil => rfl
  | cons p ps ih => simp only [numbered, List.map_cons, Nat.add_right_comm line n, ih]

theorem map_snd_numbered (line : Nat) (ps : List Piece) :
    (numbered line ps).map Prod.snd = ps := by
  induction ps generalizing line with
  | nil => rfl
  | cons p ps ih => rw [numbered, List.map_cons, ih]

theorem token?_add (n last : Nat) (p : Piece) :
    token? (last + n, p) = (token? (last, p)).map (Respelling.lines (· + n)).apply := by
  unfold token?
  split <;> simp_all [Respelling.lines]

theorem diagnostic?_add (n last : Nat) (p : Piece) :
    diagnostic? (last + n, p) =
      (diagnostic? (last, p)).map fun d => { d with line := d.line + n } := by
  unfold diagnostic?
  split <;> simp_all

theorem filterMap_token?_add (n line : Nat) (ps : List Piece) :
    (numbered (line + n) ps).filterMap token? =
      ((numbered line ps).filterMap token?).map (Respelling.lines (· + n)).apply := by
  simp only [numbered_add, List.filterMap_map, List.map_filterMap, Function.comp_def, token?_add]

theorem filterMap_diagnostic?_add (n line : Nat) (ps : List Piece) :
    (numbered (line + n) ps).filterMap diagnostic? =
      ((numbered line ps).filterMap diagnostic?).map fun d => { d with line := d.line + n } := by
  simp only [numbered_add, List.filterMap_map, List.map_filterMap, Function.comp_def,
    diagnostic?_add]

theorem split_legal (cs : List Char) : ∀ p ∈ split cs, ∃ rest, p.Legal rest := by
  fun_induction split cs with
  | case1 => simp
  | case2 c cs found ih => exact List.forall_mem_cons.mpr ⟨⟨_, first_legal c cs⟩, ih⟩

theorem exists_lexeme {line : Nat} {cs : List Char} {t : Token}
    (member : t ∈ (numbered line (split cs)).filterMap token?) :
    ∃ rest, Lexeme t.kind t.literal t.lexeme.toList rest := by
  obtain ⟨⟨last, p⟩, known, found⟩ := List.mem_filterMap.mp member
  have among : p ∈ split cs := map_snd_numbered line (split cs) ▸ List.mem_map_of_mem known
  obtain ⟨rest, legal⟩ := split_legal cs p among
  unfold token? at found
  split at found
  case h_1 kind literal chars same =>
    cases same
    cases found
    exact ⟨rest, by rwa [String.toList_ofList]⟩
  case h_2 => cases found

end Piece

open Piece

theorem Program.body_scan (source : String) :
    body (scan source).tokens = (numbered 1 (split source.toList)).filterMap token? := by
  have inner : ∀ t ∈ (numbered 1 (split source.toList)).filterMap token?, t.kind ≠ .endMark := by
    intro t member
    obtain ⟨rest, lexeme⟩ := exists_lexeme member
    exact lexeme.valued.1
  rw [body, scan, List.takeWhile_append_of_pos (by simpa using inner)]
  simp [Token.endAt]

namespace Piece

/-- Is it a token or a fault, and not what may stand between two? -/
def isSolid (p : Piece) : Bool := p.sort ≠ .blank && p.sort ≠ .newline && p.sort ≠ .comment

/-- The tokens and the faults of a text that starts on `line`, each with the line on which it
ends. -/
def solid (line : Nat) (cs : List Char) : List (Nat × Piece) :=
  (numbered line (split cs)).filter (·.2.isSolid)

variable {c d : Char} {cs : List Char}

theorem filterMap_token?_solid (line : Nat) (cs : List Char) :
    (solid line cs).filterMap token? = (numbered line (split cs)).filterMap token? := by
  rw [solid, List.filterMap_filter]
  congr! 1 with ⟨line, sort, chars⟩
  cases sort <;> rfl

theorem filterMap_diagnostic?_solid (line : Nat) (cs : List Char) :
    (solid line cs).filterMap diagnostic? = (numbered line (split cs)).filterMap diagnostic? := by
  rw [solid, List.filterMap_filter]
  congr! 1 with ⟨line, sort, chars⟩
  cases sort <;> rfl

theorem solid_nil (line : Nat) : solid line [] = [] := by rw [solid, split_nil]; rfl

theorem solid_of_first {p : Piece} {rest : List Char} (line : Nat)
    (found : first c cs = (p, rest)) :
    solid line (c :: cs) = (if p.isSolid then [(line + p.chars.count '\n', p)] else []) ++
      solid (line + p.chars.count '\n') rest := by
  rw [solid, split_cons, found, numbered, List.filter_cons]
  cases p.isSolid <;> rfl

theorem solid_newline (line : Nat) (cs : List Char) :
    solid line ('\n' :: cs) = solid (line + 1) cs := solid_of_first line (first_newline cs)

theorem count_blanks {blanks : List Char} (all : ∀ c ∈ blanks, isBlank c) :
    blanks.count '\n' = 0 :=
  List.count_eq_zero.mpr fun member => absurd (all _ member) (by decide)

theorem solid_dropBlanks (line : Nat) (cs : List Char) :
    solid line (cs.dropWhile isBlank) = solid line cs := by
  cases cs with
  | nil => rfl
  | cons c cs =>
    by_cases blank : isBlank c
    · rw [solid_of_first line (first_blank cs blank), List.dropWhile_cons_of_pos blank,
        count_blanks (forall_mem_run blank cs)]
      rfl
    · rw [List.dropWhile_cons_of_neg blank]

theorem solid_blanks {blanks : List Char} (all : ∀ c ∈ blanks, isBlank c) (line : Nat)
    (cs : List Char) : solid line (blanks ++ cs) = solid line cs := by
  rw [← solid_dropBlanks, List.dropWhile_append_of_pos all, solid_dropBlanks]

/-- A boundary parts the text. Blanks before it and behind it can make one piece, but blanks are
no part of what is left. -/
theorem solid_append (boundary : Boundary d) (closed : ∀ p ∈ split cs, p.Closed)
    (ends : ∀ p ∈ (split cs).getLast?, p.EndsAt d) (line : Nat) (more : List Char) :
    solid line (cs ++ d :: more) =
      solid line cs ++ solid (line + cs.count '\n') (d :: more) := by
  fun_induction split cs generalizing line with
  | case1 => rw [solid_nil]; rfl
  | case2 c cs found ih =>
    rw [List.getLast?_cons] at ends
    have behind (line : Nat) := ih (fun p member => closed p (List.mem_cons_of_mem _ member))
      (fun p last => ends p (by rw [Option.mem_def.mp last]; rfl)) line
    have whole : found.1.chars ++ found.2 = c :: cs := first_append c cs
    by_cases blank : isBlank c
    · have here : found = (⟨.blank, c :: cs.takeWhile isBlank⟩, cs.dropWhile isBlank) :=
        first_blank cs blank
      have all : ∀ b ∈ found.1.chars, isBlank b := here ▸ forall_mem_run blank cs
      rw [← whole, List.append_assoc, solid_blanks all, solid_blanks all, behind,
        List.count_append, count_blanks all, Nat.zero_add]
    · have here : first c (cs ++ d :: more) = (found.1, found.2 ++ d :: more) := by
        refine first_before boundary (by simpa using blank) (closed _ List.mem_cons_self) ?_ more
        exact fun none => ends _ (by rw [none, split_nil]; rfl)
      have alone : first c cs = (found.1, found.2) := rfl
      rw [List.cons_append, solid_of_first line here, behind, solid_of_first line alone, ← whole,
        List.count_append, List.append_assoc, Nat.add_assoc]

end Piece

theorem closed_of_scan {source : String} (closed : ∀ d ∈ (scan source).diagnostics,
      d.fault ≠ .unterminatedString ∧ d.fault ≠ .unterminatedComment) :
    ∀ p ∈ split source.toList, p.Closed := by
  intro p member
  rw [← map_snd_numbered 1 (split source.toList)] at member
  obtain ⟨⟨last, sort, chars⟩, found, rfl⟩ := List.mem_map.mp member
  have reported (fault : Fault) (same : sort = .unreadable fault) :
      ⟨last, .nowhere, fault⟩ ∈ (scan source).diagnostics :=
    List.mem_filterMap.mpr ⟨_, found, by rw [same]; rfl⟩
  exact ⟨fun same => (closed _ (reported _ same)).1 rfl,
    fun same => (closed _ (reported _ same)).2 rfl⟩

namespace Scan

/-- The scan of a text that goes on: its end mark is left out. -/
def followed (s t : Scan) : Scan :=
  ⟨Program.body s.tokens ++ t.tokens, s.diagnostics ++ t.diagnostics⟩

/-- The same scan so many lines further down. -/
def moved (n : Nat) (s : Scan) : Scan :=
  ⟨s.tokens.map (Respelling.lines (· + n)).apply,
    s.diagnostics.map fun d => { d with line := d.line + n }⟩

theorem moved_moved (s : Scan) (m n : Nat) : (s.moved m).moved n = s.moved (m + n) := by
  simp only [moved, List.map_map, Respelling.lines, Function.comp_def, Nat.add_assoc]

end Scan

theorem scan_parted {whole front back : String} (n : Nat)
    (parted : solid 1 whole.toList = solid 1 front.toList ++ solid (1 + n) back.toList)
    (lines : whole.toList.count '\n' = n + back.toList.count '\n') :
    scan whole = (scan front).followed ((scan back).moved n) := by
  have tokens := congrArg (List.filterMap token?) parted
  have faults := congrArg (List.filterMap diagnostic?) parted
  simp only [List.filterMap_append, filterMap_token?_solid, filterMap_diagnostic?_solid,
    filterMap_token?_add, filterMap_diagnostic?_add] at tokens faults
  have last : Token.endAt (1 + (n + back.toList.count '\n')) =
      (Respelling.lines (· + n)).apply (Token.endAt (1 + back.toList.count '\n')) := by
    rw [Nat.add_comm n, ← Nat.add_assoc]
    rfl
  rw [Scan.followed, Program.body_scan, scan, tokens, faults, lines, last]
  simp only [scan, Scan.moved, List.map_append, List.append_assoc]
  rfl

theorem scan_append {a b : String} {d : Char} {more : List Char} (starts : b.toList = d :: more)
    (boundary : Boundary d) (closed : ∀ p ∈ split a.toList, p.Closed)
    (ends : ∀ p ∈ (split a.toList).getLast?, p.EndsAt d) :
    scan (a ++ b) = (scan a).followed ((scan b).moved (a.toList.count '\n')) := by
  apply scan_parted
  · rw [String.toList_append, starts, solid_append boundary closed ends]
  · rw [String.toList_append, List.count_append]

theorem scan_skipped {gap back : String}
    (skipped : solid 1 (gap ++ back).toList = solid (1 + gap.toList.count '\n') back.toList) :
    scan (gap ++ back) = (scan back).moved (gap.toList.count '\n') := by
  have whole : scan (gap ++ back) =
      (scan "").followed ((scan back).moved (gap.toList.count '\n')) := by
    apply scan_parted
    · rw [skipped, String.toList_empty, solid_nil, List.nil_append]
    · rw [String.toList_append, List.count_append]
  have nothing : scan "" = ⟨[Token.endAt 1], []⟩ := by
    rw [scan, String.toList_empty, split_nil]
    rfl
  rw [whole, nothing]
  rfl

theorem scan_joined {a : String} (closed : ∀ p ∈ split a.toList, p.Closed) (b : String) :
    scan (a ++ "\n" ++ b) =
      (scan a).followed ((scan b).moved (1 + a.toList.count '\n')) := by
  have starts : ("\n" ++ b).toList = '\n' :: b.toList := by simp
  have boundary : Boundary '\n' := ⟨by decide, by decide, by decide, by decide⟩
  have skipped : scan ("\n" ++ b) = (scan b).moved 1 :=
    scan_skipped (by rw [starts, solid_newline]; rfl)
  have ends : ∀ p ∈ (split a.toList).getLast?, p.EndsAt '\n' :=
    fun _ _ => ⟨fun _ => rfl, fun _ => ⟨by decide, by decide⟩⟩
  rw [String.append_assoc, scan_append starts boundary closed ends, skipped, Scan.moved_moved]

end Scriptlet
