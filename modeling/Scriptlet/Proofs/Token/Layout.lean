import Scriptlet.Proofs.Token.Munch

namespace Scriptlet

open Piece

/-- A token without its line, and the gap before it. -/
structure Word where
  gap : List Char
  kind : Kind
  literal : Option Literal
  lexeme : List Char

/-- The words of a text, and the gap behind the last. -/
structure Layout where
  words : List Word
  last : List Char

namespace Layout

def chars (l : Layout) : List Char := l.words.flatMap (fun w => w.gap ++ w.lexeme) ++ l.last

/-- Each token is on the line on which it ends. -/
def tokensFrom : (line : Nat) → List Word → List Token
  | _, [] => []
  | line, w :: words =>
    let last := line + (w.gap ++ w.lexeme).count '\n'
    ⟨w.kind, String.ofList w.lexeme, w.literal, last⟩ :: tokensFrom last words

def tokens (l : Layout) : List Token := tokensFrom 1 l.words

/-- Every gap and every token follows the rules; a comment is over at one of the depths `ends`. -/
inductive Valid (ends : List Nat) : Layout → Prop where
  | last {gap} : Gap ends gap [] → Valid ends ⟨[], gap⟩
  | word {w words last} : Gap ends w.gap (w.lexeme ++ chars ⟨words, last⟩) →
      Lexeme w.kind w.literal w.lexeme (chars ⟨words, last⟩) →
      Valid ends ⟨words, last⟩ → Valid ends ⟨w :: words, last⟩

def before (text : List Char) : Layout → Layout
  | ⟨[], last⟩ => ⟨[], text ++ last⟩
  | ⟨w :: words, last⟩ => ⟨{ w with gap := text ++ w.gap } :: words, last⟩

def ofPieces : List Piece → Layout
  | [] => ⟨[], []⟩
  | ⟨.token kind literal, chars⟩ :: pieces =>
    ⟨⟨[], kind, literal, chars⟩ :: (ofPieces pieces).words, (ofPieces pieces).last⟩
  | ⟨_, chars⟩ :: pieces => (ofPieces pieces).before chars

/-- The layout of a text as the scanner finds it. -/
def find (cs : List Char) : Layout := ofPieces (split cs)

variable {text more rest : List Char} {l : Layout}

@[simp] theorem before_nil : l.before [] = l := by
  obtain ⟨_ | ⟨w, words⟩, last⟩ := l <;> rfl

@[simp] theorem before_before : (l.before more).before text = l.before (text ++ more) := by
  obtain ⟨_ | ⟨w, words⟩, last⟩ := l <;> simp [before]

@[simp] theorem chars_before : (l.before text).chars = text ++ l.chars := by
  obtain ⟨_ | ⟨w, words⟩, last⟩ := l <;> simp [before, chars]

@[simp] theorem chars_last (gap : List Char) : chars ⟨[], gap⟩ = gap := rfl

@[simp] theorem chars_word (w : Word) (words : List Word) (last : List Char) :
    chars ⟨w :: words, last⟩ = w.gap ++ (w.lexeme ++ chars ⟨words, last⟩) := by simp [chars]

theorem find_nil : find [] = ⟨[], []⟩ := by rw [find, split_nil]; rfl

theorem tokensFrom_before (line : Nat) :
    tokensFrom line (l.before text).words = tokensFrom (line + text.count '\n') l.words := by
  obtain ⟨_ | ⟨w, words⟩, last⟩ := l
  · rfl
  · simp [before, tokensFrom, List.count_append, Nat.add_assoc]

theorem tokensFrom_ofPieces (line : Nat) (pieces : List Piece) :
    tokensFrom line (ofPieces pieces).words = (numbered line pieces).filterMap token? := by
  fun_induction ofPieces pieces generalizing line with
  | case1 => rfl
  | case2 kind literal chars pieces ih => simp [tokensFrom, numbered, token?, ih]
  | case3 sort chars pieces other ih =>
    have none : token? (line + chars.count '\n', ⟨sort, chars⟩) = none := by
      cases sort with
      | token kind literal => exact absurd rfl (other kind literal)
      | _ => rfl
    rw [tokensFrom_before, numbered, List.filterMap_cons_none none, ih]

theorem find_token {kind : Kind} {literal : Option Literal}
    (pieces : split (text ++ rest) = ⟨.token kind literal, text⟩ :: split rest) :
    find (text ++ rest) = ⟨⟨[], kind, literal, text⟩ :: (find rest).words, (find rest).last⟩ := by
  rw [find, pieces, ofPieces]
  rfl

theorem find_other {sort : PieceSort} (other : ∀ kind literal, sort ≠ .token kind literal)
    (pieces : split (text ++ rest) = ⟨sort, text⟩ :: split rest) :
    find (text ++ rest) = (find rest).before text := by
  rw [find, pieces]
  cases sort with
  | token kind literal => exact absurd rfl (other kind literal)
  | _ => rfl

theorem find_blanks (cs : List Char) :
    find cs = (find (cs.dropWhile isBlank)).before (cs.takeWhile isBlank) := by
  cases cs with
  | nil => simp
  | cons c cs =>
    by_cases blank : isBlank c
    · have whole : c :: cs = c :: cs.takeWhile isBlank ++ cs.dropWhile isBlank := by simp
      have piece : split (c :: cs.takeWhile isBlank ++ cs.dropWhile isBlank) =
          ⟨.blank, c :: cs.takeWhile isBlank⟩ :: split (cs.dropWhile isBlank) := by
        rw [← whole]
        exact split_of_first (first_blank cs blank)
      have other : ∀ kind literal, PieceSort.blank ≠ .token kind literal := by simp
      rw [whole, find_other other piece, ← whole, List.takeWhile_cons_of_pos blank,
        List.dropWhile_cons_of_pos blank]
    · rw [List.takeWhile_cons_of_neg blank, List.dropWhile_cons_of_neg blank, before_nil]

theorem find_blank {c : Char} (blank : isBlank c) (rest : List Char) :
    find (c :: rest) = (find rest).before [c] := by
  rw [find_blanks rest, before_before, find_blanks, List.takeWhile_cons_of_pos blank,
    List.dropWhile_cons_of_pos blank]
  rfl

theorem find_filler (filler : Filler commentEnds text rest) :
    find (text ++ rest) = (find rest).before text := by
  rcases split_filler filler with ⟨c, rfl, blank⟩ | ⟨sort, other, pieces⟩
  · exact find_blank blank rest
  · exact find_other other pieces

theorem find_gap (gap : Gap commentEnds text rest) :
    find (text ++ rest) = (find rest).before text := by
  induction gap with
  | nil => simp
  | cons filler _ ih => rw [List.append_assoc, find_filler filler, ih, before_before]

theorem find_of_valid (valid : l.Valid commentEnds) : find l.chars = l := by
  -- On the words: a gap and the token behind it come off the front of the text together.
  induction valid with
  | @last gap gapped =>
    have found := find_gap gapped
    rw [find_nil, List.append_nil] at found
    rw [chars_last, found]
    simp [before]
  | word gapped lexeme _ ih =>
    rw [chars_word, find_gap gapped, find_token (split_lexeme lexeme), ih]
    simp [before]

theorem Valid.before {ends : List Nat} (gap : Gap ends text l.chars) (valid : l.Valid ends) :
    (l.before text).Valid ends := by
  cases valid with
  | @last behind inner =>
    rw [chars_last, ← List.append_nil behind] at gap
    exact .last (gap.append inner)
  | word inner lexeme others =>
    rw [chars_word] at gap
    exact .word (gap.append inner) lexeme others

theorem find_follows (cs : List Char) :
    (find cs).chars = cs ∧ (find cs).Valid commentEnds := by
  fun_induction split cs with
  | case1 =>
    rw [find_nil]
    exact ⟨rfl, .last .nil⟩
  | case2 c cs found ih =>
    have whole : found.1.chars ++ found.2 = c :: cs := first_append c cs
    have legal : found.1.Legal found.2 := first_legal c cs
    clear_value found
    obtain ⟨⟨sort, text⟩, rest⟩ := found
    obtain ⟨behind, valid⟩ : (find rest).chars = rest ∧ (find rest).Valid commentEnds := ih
    rw [← whole]
    cases sort with
    | token kind literal =>
      have lexeme : Lexeme kind literal text rest := legal
      rw [find_token (split_lexeme lexeme)]
      refine ⟨by rw [chars_word, behind]; rfl, .word .nil ?_ valid⟩
      rwa [behind]
    | _ =>
      have gap : Gap commentEnds text rest := legal
      rw [find_gap gap]
      exact ⟨by rw [chars_before, behind], valid.before (by rwa [behind])⟩

theorem Valid.forall_words {ends : List Nat} {P : Kind → Option Literal → Prop}
    (valid : l.Valid ends)
    (each : ∀ {kind literal text rest}, Lexeme kind literal text rest → P kind literal) :
    ∀ w ∈ l.words, P w.kind w.literal := by
  induction valid with
  | last => simp
  | word _ lexeme _ ih => exact List.forall_mem_cons.mpr ⟨each lexeme, ih⟩

theorem Valid.of_agree {ends others : List Nat} (valid : l.Valid ends)
    (agree : Agree ends others l.chars) : l.Valid others := by
  induction valid with
  | last gap => exact .last (gap.of_agree (by simpa using agree))
  | word gap lexeme _ ih =>
    rw [chars_word] at agree
    exact .word (gap.of_agree agree) lexeme (ih agree.behind.behind)

theorem tokens_scan (source : String) : (scan source).tokens =
    (find source.toList).tokens ++ [Token.endAt (1 + source.toList.count '\n')] := by
  rw [tokens, find, tokensFrom_ofPieces]
  rfl

theorem not_lexeme_comment {kind : Kind} {literal : Option Literal} (body : List Char)
    (lexeme : Lexeme kind literal text rest) : text ++ rest ≠ '/' :: '*' :: body := by
  intro opens
  have pieces := split_lexeme lexeme
  rw [opens, split_cons, first_slash, slash, List.cons.injEq] at pieces
  have sort := congrArg Piece.sort pieces.1
  unfold blockComment at sort
  split at sort <;> cases sort

theorem lexeme_ne_nil {kind : Kind} {literal : Option Literal}
    (lexeme : Lexeme kind literal text rest) : text ≠ [] := by
  rintro rfl
  exact List.cons_ne_self _ _ (split_lexeme lexeme).symm

section

variable {ends : List Nat} {body : List Char}

theorem filler_of_open (never : ∀ front, front <+: body → ¬ Reaches ends 1 front)
    (filler : Filler ends text rest) (opens : text ++ rest = '/' :: '*' :: body) : rest = [] := by
  cases filler with
  | blank blank => cases opens; cases blank
  | newline => cases opens
  | lineComment => cases opens
  | blockComment reaches => cases opens; exact absurd reaches (never _ (List.prefix_append _ _))
  | unexpected strange => cases opens; exact absurd (by decide) (strange.operator .slash)
  | openString => cases opens
  | openComment => rfl

theorem gap_of_open (never : ∀ front, front <+: body → ¬ Reaches ends 1 front)
    (gap : Gap ends text rest) (opens : text ++ rest = '/' :: '*' :: body) :
    text = [] ∨ rest = [] := by
  cases gap with
  | nil => exact .inl rfl
  | cons filler _ =>
    rw [List.append_assoc] at opens
    exact .inr (List.append_eq_nil_iff.mp (filler_of_open never filler opens)).2

/-- By the rules no token stands behind the opening mark of a comment that is never over. -/
theorem Valid.words_of_open (never : ∀ front, front <+: body → ¬ Reaches ends 1 front)
    (valid : l.Valid ends) (opens : l.chars = '/' :: '*' :: body) : l.words = [] := by
  cases valid with
  | last => rfl
  | @word w words last gap lexeme _ =>
    rw [chars_word] at opens
    rcases gap_of_open never gap opens with first | nothing
    · rw [first, List.nil_append] at opens
      exact absurd opens (not_lexeme_comment body lexeme)
    · exact absurd (List.append_eq_nil_iff.mp nothing).1 (lexeme_ne_nil lexeme)

end

end Layout

open Layout

/-- If no comment gets too deep to count, there is one layout of a source text that follows the
rules. Its tokens are those of the scan, which ends with an end mark on the last line and has no
other. -/
theorem scan_layout (source : String) (shallow : Shallow source.toList) :
    ∃ l : Layout, (l.chars = source.toList ∧ l.Valid [0]) ∧
      (∀ other : Layout, other.chars = source.toList → other.Valid [0] → other = l) ∧
      (scan source).tokens = l.tokens ++ [Token.endAt (1 + source.toList.count '\n')] ∧
      ∀ w ∈ l.words, w.kind ≠ .endMark ∧
        (w.literal.isSome ↔ w.kind = .string ∨ w.kind = .number) := by
  obtain ⟨whole, valid⟩ := find_follows source.toList
  have closed : (find source.toList).Valid [0] := valid.of_agree (whole.symm ▸ shallow.agree.symm)
  refine ⟨find source.toList, ⟨whole, closed⟩, ?unique, tokens_scan source,
    closed.forall_words Lexeme.valued⟩
  intro other same follows
  rw [← same, find_of_valid (follows.of_agree (same.symm ▸ shallow.agree))]

theorem scan_layout_compared :
    let l : Layout := ⟨[⟨[], .name, none, ['a']⟩, ⟨[' '], .bangEqual, none, ['!', '=']⟩,
      ⟨['/', '*', '*', '/'], .string, some (.string "b"), ['"', 'b', '"']⟩], ['@', '/', '/']⟩
    (l.chars = "a !=/**/\"b\"@//".toList ∧ l.Valid [0]) ∧
      (scan "a !=/**/\"b\"@//").tokens = l.tokens ++ [Token.endAt 1] := by
  intro l
  have whole : l.chars = "a !=/**/\"b\"@//".toList := rfl
  have blank : Gap [0] [' '] "!=/**/\"b\"@//".toList := .of_filler (.blank rfl)
  have comment : Gap [0] ['/', '*', '*', '/'] "\"b\"@//".toList :=
    .of_filler (.blockComment (.closing (by decide) (.done (by decide))))
  have strange : Strange '@' :=
    ⟨by decide, by decide, by decide, by decide, by decide, fun kind => by cases kind <;> decide⟩
  have behind : Gap [0] ['@', '/', '/'] [] :=
    .cons (.unexpected strange) (.of_filler (.lineComment List.not_mem_nil (stops_nil _)))
  have alone : ∀ longer, (['!', '=', '/'], longer) ∉ Kind.operators :=
    fun longer => by cases longer <;> decide
  have valid : l.Valid [0] := by
    refine .word .nil (.name rfl (by simp) (by decide) (by rintro d ⟨⟩; decide)) ?_
    have longest : Longest ['!', '='] "/**/\"b\"@//".toList :=
      ⟨by rintro d ⟨⟩; exact alone, by rintro d ⟨⟩; decide⟩
    refine .word blank (.operator (by decide) longest) ?_
    exact .word comment (.string (by decide)) (.last behind)
  have shallow : Shallow "a !=/**/\"b\"@//".toList := shallow_of_length (by decide)
  obtain ⟨found, _, unique, tokens, _⟩ := scan_layout "a !=/**/\"b\"@//" shallow
  rw [← unique l whole valid] at tokens
  exact ⟨⟨whole, valid⟩, tokens⟩

/-- With too many comments opened and none closed the scanner reads on and finds a name, where the
rules allow no token. -/
theorem scan_layout_too_deep :
    let source := String.ofList (openings tooDeep ++ [' ', 'a'])
    (scan source).tokens = [⟨.name, "a", none, 1⟩, Token.endAt 1] ∧
      ¬ ∃ l : Layout, (l.chars = source.toList ∧ l.Valid [0]) ∧
        (scan source).tokens = l.tokens ++ [Token.endAt (1 + source.toList.count '\n')] := by
  intro source
  have found : (scan source).tokens = [⟨.name, "a", none, 1⟩, Token.endAt 1] := by
    have behind : (scan (String.ofList [' ', 'a'])).tokens =
        [⟨.name, "a", none, 1⟩, Token.endAt 1] := by decide +kernel
    rw [scan_openings, behind]
  refine ⟨found, ?_⟩
  rintro ⟨l, ⟨whole, valid⟩, same⟩
  obtain ⟨n, _, marks⟩ := openings_tooDeep
  have opens : l.chars = '/' :: '*' :: (openings n ++ [' ', 'a']) := by
    rw [whole, String.toList_ofList, marks]
    rfl
  have flat : ∀ depth, ∀ d ∈ depths depth [' ', 'a'], depth ≤ d := by simp [depths]
  have none : l.words = [] := valid.words_of_open (not_closed_openings flat n) opens
  have length := congrArg List.length (found.symm.trans same)
  rw [tokens, none] at length
  cases length

end Scriptlet
