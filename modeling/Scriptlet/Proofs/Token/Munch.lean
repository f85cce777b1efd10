import Scriptlet.Proofs.Token.Depth

namespace Scriptlet

section Characters

variable {c : Char}

theorem isBlank_iff : isBlank c ↔ c = ' ' ∨ c = '\r' ∨ c = '\t' := by simp [isBlank, or_assoc]

theorem not_mem_of_any {p : Char → Bool} {ds : List Char} (holds : p c)
    (never : ds.any p = false) : c ∉ ds :=
  fun member => List.any_eq_false.mp never c member holds

theorem no_space {p : Char → Bool} (holds : p c)
    (never : ['\n', ' ', '\r', '\t'].any p = false) : c ≠ '\n' ∧ ¬ isBlank c := by
  have other := not_mem_of_any holds never
  simp only [List.mem_cons, List.not_mem_nil, or_false, not_or] at other
  exact ⟨other.1, by simpa [isBlank_iff] using other.2⟩

theorem not_digit_of_isNameStart (letter : isNameStart c) : c.isDigit = false := by
  have digits : ∀ n < 58, 48 ≤ n → isNameStart (Char.ofNat n) = false := by decide
  rw [Bool.eq_false_iff]
  intro digit
  obtain ⟨low, high⟩ := Char.isDigit_iff_toNat.mp digit
  have none := digits c.toNat (Nat.lt_succ_of_le high) low
  rw [Char.ofNat_toNat, letter] at none
  cases none

end Characters

namespace Piece

variable {c : Char} (cs : List Char)

theorem first_newline : first '\n' cs = (⟨.newline, ['\n']⟩, cs) := rfl

theorem first_blank (blank : isBlank c) :
    first c cs = (⟨.blank, c :: cs.takeWhile isBlank⟩, cs.dropWhile isBlank) := by
  have line : c ≠ '\n' := by rintro rfl; exact absurd blank (by decide)
  rw [first, if_neg line, if_pos blank]

theorem first_digit (digit : c.isDigit) : first c cs = number c cs := by
  obtain ⟨line, blank⟩ := no_space digit (by decide)
  rw [first, if_neg line, if_neg blank, if_pos digit]

theorem first_letter (letter : isNameStart c) : first c cs = word c cs := by
  obtain ⟨line, blank⟩ := no_space letter (by decide)
  have digit : ¬ c.isDigit := by simpa using not_digit_of_isNameStart letter
  rw [first, if_neg line, if_neg blank, if_neg digit, if_pos letter]

theorem first_slash : first '/' cs = slash cs := rfl

theorem first_strange (strange : Strange c) :
    first c cs = (⟨.unreadable .unexpectedCharacter, [c]⟩, cs) := by
  have none : Kind.ofChar? c = none := by
    rw [Option.eq_none_iff_forall_ne_some]
    exact fun kind found => strange.operator kind (Kind.mem_operators.mpr found)
  have slash : c ≠ '/' := by rintro rfl; cases none
  simp [first, operator, strange.line, strange.blank, strange.digit, strange.letter, strange.quote,
    slash, Kind.withEqual?_of_ofChar? none, none]

theorem first_operator {kind : Kind} (found : Kind.ofChar? c = some kind) (slash : c ≠ '/') :
    first c cs = operator c cs := by
  unfold Kind.ofChar? at found
  split at found <;> cases found
  all_goals first | exact absurd rfl slash | rfl

section Rules

variable {rest : List Char}

theorem number_whole {digits : List Char} (some : digits ≠ []) (all : ∀ d ∈ digits, d.isDigit)
    (stops : Stops Char.isDigit rest) (point : ∀ d, ['.', d] <+: rest → d.isDigit = false) :
    ∃ c cs, digits ++ rest = c :: cs ∧ c.isDigit ∧ number c cs =
      (⟨.token .number (.some (.number (Decimal.ofDigits digits []).toFloat)), digits⟩, rest) := by
  obtain ⟨c, digits, rfl⟩ := List.exists_cons_of_ne_nil some
  obtain ⟨digit, all⟩ := List.forall_mem_cons.mp all
  have part : fractionPart rest = ([], rest) := by
    fun_cases fractionPart rest with
    | case1 cs starts =>
      cases cs with
      | nil => simp at starts
      | cons d cs => simp [point d ⟨cs, rfl⟩] at starts
    | case2 => rfl
    | case3 => rfl
  refine ⟨c, digits ++ rest, rfl, digit, ?_⟩
  rw [number, takeWhile_of_stops all stops, dropWhile_of_stops all stops, part]
  rfl

theorem number_fraction {digits places : List Char} (some : digits ≠ [])
    (all : ∀ d ∈ digits, d.isDigit) (more : places ≠ []) (each : ∀ d ∈ places, d.isDigit)
    (stops : Stops Char.isDigit rest) :
    ∃ c cs, digits ++ '.' :: places ++ rest = c :: cs ∧ c.isDigit ∧ number c cs =
      (⟨.token .number (.some (.number (Decimal.ofDigits digits places).toFloat)),
        digits ++ '.' :: places⟩, rest) := by
  obtain ⟨c, digits, rfl⟩ := List.exists_cons_of_ne_nil some
  obtain ⟨digit, all⟩ := List.forall_mem_cons.mp all
  have part : fractionPart ('.' :: (places ++ rest)) = (places, rest) := by
    have starts : (places ++ rest).head?.any Char.isDigit := by
      cases places with
      | nil => exact absurd rfl more
      | cons d places => exact each d List.mem_cons_self
    rw [fractionPart, if_pos starts, takeWhile_of_stops each stops, dropWhile_of_stops each stops]
  have point : Stops Char.isDigit ('.' :: (places ++ rest)) := by rintro d ⟨⟩; decide
  refine ⟨c, digits ++ '.' :: (places ++ rest), by simp, digit, ?_⟩
  rw [number, takeWhile_of_stops all point, dropWhile_of_stops all point, part]
  simp [more]

theorem word_of_stops {cs : List Char} (all : ∀ d ∈ cs, isNamePart d)
    (stops : Stops isNamePart rest) : word c (cs ++ rest) =
      (⟨.token (Kind.ofWord (String.ofList (c :: cs))) none, c :: cs⟩, rest) := by
  rw [word, takeWhile_of_stops all stops, dropWhile_of_stops all stops]

theorem string_of_closed {body : List Char} (inside : '"' ∉ body) (rest : List Char) :
    string (body ++ '"' :: rest) =
      (⟨.token .string (some (.string (String.ofList body))), '"' :: body ++ ['"']⟩, rest) := by
  have stops : Stops (· ≠ '"') ('"' :: rest) := by rintro d ⟨⟩; decide
  rw [string, takeWhile_of_stops (all_ne inside) stops, dropWhile_of_stops (all_ne inside) stops]

theorem string_of_open {body : List Char} (inside : '"' ∉ body) :
    string body = (⟨.unreadable .unterminatedString, '"' :: body⟩, []) := by
  have whole := takeWhile_of_stops (all_ne inside) (stops_nil _)
  have none := dropWhile_of_stops (all_ne inside) (stops_nil _)
  rw [List.append_nil] at whole none
  rw [string, whole, none]

theorem slash_line {body : List Char} (inside : '\n' ∉ body) (stops : Stops (· ≠ '\n') rest) :
    slash ('/' :: body ++ rest) = (⟨.comment, '/' :: '/' :: body⟩, rest) := by
  rw [List.cons_append, slash, takeWhile_of_stops (all_ne inside) stops,
    dropWhile_of_stops (all_ne inside) stops]

theorem slash_block {body : List Char} (reaches : Reaches commentEnds 1 body)
    (rest : List Char) :
    slash ('*' :: body ++ rest) = (⟨.comment, '/' :: '*' :: body⟩, rest) := by
  have closed : closeComment 1 (body ++ rest) = some (body, rest) :=
    closeComment_of_reaches reaches (by decide) rest
  rw [List.cons_append, slash, blockComment, closed]

theorem slash_open {body : List Char}
    (never : ∀ front, front <+: body → ¬ Reaches commentEnds 1 front) :
    slash ('*' :: body) = (⟨.unreadable .unterminatedComment, '/' :: '*' :: body⟩, []) := by
  have none : closeComment 1 body = none := by
    rw [Option.eq_none_iff_forall_ne_some]
    rintro ⟨front, rest⟩ closed
    refine never front ⟨rest, closeComment_append closed⟩ ?_
    exact reaches_of_closeComment closed (by decide)
  rw [slash, blockComment, none]

theorem slash_other (star : '*' ∉ rest.head?) (slash : '/' ∉ rest.head?) :
    Piece.slash rest = operator '/' rest := by
  fun_cases Piece.slash rest with
  | case1 => exact absurd rfl star
  | case2 => exact absurd rfl slash
  | case3 => rfl

end Rules

end Piece

namespace Kind

theorem keyword_spelled {word : String} {kind : Kind} (known : (word, kind) ∈ keywords) :
    ofWord word = kind ∧
      ∃ c cs, word.toList = c :: cs ∧ isNameStart c ∧ ∀ d ∈ cs, isNamePart d := by
  have all : ∀ entry ∈ keywords, ofWord entry.1 = entry.2 ∧
      entry.1.toList.head?.any isNameStart ∧ entry.1.toList.tail.all isNamePart := by decide
  obtain ⟨same, starts, parts⟩ := all _ known
  refine ⟨same, ?_⟩
  cases chars : word.toList with
  | nil => simp [chars] at starts
  | cons c cs => exact ⟨c, cs, rfl, by simpa [chars] using starts, by simpa [chars] using parts⟩

theorem ofWord_eq_name {word : String} (unknown : ∀ entry ∈ keywords, entry.1 ≠ word) :
    ofWord word = name := by
  have none : keywords.lookup word = none := by
    rw [List.lookup_eq_none_iff]
    exact fun entry member => by simpa using (unknown entry member).symm
  rw [ofWord, none, Option.getD_none]

end Kind

namespace Piece

theorem split_of_first {c : Char} {cs rest : List Char} {p : Piece} (h : first c cs = (p, rest)) :
    split (c :: cs) = p :: split rest := by rw [split_cons, h]

theorem split_operator {chars rest : List Char} {kind : Kind}
    (known : (chars, kind) ∈ Kind.operators) (longest : Longest chars rest) :
    split (chars ++ rest) = ⟨.token kind none, chars⟩ :: split rest := by
  have found := Kind.mem_operators.mp known
  unfold Kind.ofChars? at found
  split at found
  case h_1 c =>
    -- A character alone: that it does not join an equals sign is known from the text behind it.
    have single : operator c rest = (⟨.token kind none, [c]⟩, rest) := by
      unfold operator
      split
      case h_1 two rest joined =>
        have pair : Kind.ofChars? ([c] ++ ['=']) = some two := joined
        exact absurd (Kind.mem_operators.mpr pair) (longest.operator '=' rfl two)
      case h_2 => rw [found]
    by_cases slash : c = '/'
    · subst slash
      rw [List.singleton_append]
      apply split_of_first
      have star : '*' ∉ rest.head? := fun next => (longest.comment '*' next).2 rfl
      have slash : '/' ∉ rest.head? := fun next => (longest.comment '/' next).1 rfl
      rw [first_slash, slash_other star slash]
      exact single
    · rw [List.singleton_append]
      apply split_of_first
      rw [first_operator _ found slash]
      exact single
  case h_2 c =>
    apply split_of_first
    unfold Kind.withEqual? at found
    split at found <;> cases found
    all_goals rfl
  case h_3 => cases found

theorem split_lexeme {kind : Kind} {literal : Option Literal} {text rest : List Char}
    (lexeme : Lexeme kind literal text rest) :
    split (text ++ rest) = ⟨.token kind literal, text⟩ :: split rest := by
  cases lexeme with
  | @name c cs _ letter parts unknown stops =>
    rw [List.cons_append]
    apply split_of_first
    rw [first_letter _ letter, word_of_stops parts stops, Kind.ofWord_eq_name unknown]
  | @keyword word _ _ known stops =>
    obtain ⟨same, c, cs, chars, letter, parts⟩ := Kind.keyword_spelled known
    have spelled : String.ofList (c :: cs) = word := by rw [← chars, String.ofList_toList]
    rw [chars, List.cons_append]
    apply split_of_first
    rw [first_letter _ letter, word_of_stops parts stops, spelled, same]
  | whole some all stops point =>
    obtain ⟨c, cs, chars, digit, number⟩ := number_whole some all stops point
    rw [chars]
    exact split_of_first ((first_digit cs digit).trans number)
  | fraction some all more each stops =>
    obtain ⟨c, cs, chars, digit, number⟩ := number_fraction some all more each stops
    rw [chars]
    exact split_of_first ((first_digit cs digit).trans number)
  | @string body _ inside =>
    have chars : '"' :: body ++ ['"'] ++ rest = '"' :: (body ++ '"' :: rest) := by simp
    rw [chars]
    exact split_of_first (string_of_closed inside rest)
  | operator known longest => exact split_operator known longest

/-- What stands between two tokens is one piece that is no token, but blanks can be several. -/
theorem split_filler {text rest : List Char} (filler : Filler commentEnds text rest) :
    (∃ c, text = [c] ∧ isBlank c) ∨
      ∃ sort, (∀ kind literal, sort ≠ .token kind literal) ∧
        split (text ++ rest) = ⟨sort, text⟩ :: split rest := by
  cases filler with
  | @blank c _ blank => exact .inl ⟨c, rfl, blank⟩
  | newline => exact .inr ⟨.newline, by simp, split_of_first (first_newline rest)⟩
  | lineComment inside stops =>
    exact .inr ⟨.comment, by simp, split_of_first (slash_line inside stops)⟩
  | blockComment closes =>
    exact .inr ⟨.comment, by simp, split_of_first (slash_block closes rest)⟩
  | unexpected strange =>
    exact .inr ⟨.unreadable _, by simp, split_of_first (first_strange rest strange)⟩
  | openString inside =>
    rw [List.append_nil]
    exact .inr ⟨.unreadable _, by simp, split_of_first (string_of_open inside)⟩
  | openComment never =>
    rw [List.append_nil]
    exact .inr ⟨.unreadable _, by simp, split_of_first (slash_open never)⟩

/-- The piece is what the rules allow before the text `rest`. -/
def Legal : Piece → List Char → Prop
  | ⟨.token kind literal, chars⟩, rest => Lexeme kind literal chars rest
  | ⟨_, chars⟩, rest => Gap commentEnds chars rest

theorem number_legal {c : Char} (digit : c.isDigit) (cs : List Char) :
    (number c cs).1.Legal (number c cs).2 := by
  have all := forall_mem_run digit cs
  have stops := stops_dropWhile Char.isDigit cs
  unfold number
  generalize cs.dropWhile Char.isDigit = behind at stops
  fun_cases fractionPart behind with
  | case1 places starts =>
    obtain ⟨d, more, rfl⟩ : ∃ d more, places = d :: more :=
      List.ne_nil_iff_exists_cons.mp (by rintro rfl; simp at starts)
    have first : d.isDigit := starts
    have some : (d :: more).takeWhile Char.isDigit ≠ [] := by simp [first]
    simp only [if_neg some]
    exact .fraction (List.cons_ne_nil _ _) all some (fun _ => List.mem_takeWhile_imp)
      (stops_dropWhile _ _)
  | case2 places noDigit =>
    refine .whole (List.cons_ne_nil _ _) all (by rintro d ⟨⟩; decide) ?_
    rintro d ⟨more, same⟩
    obtain ⟨-, rfl⟩ := List.cons.inj same
    simpa using noDigit
  | case3 behind noPoint =>
    refine .whole (List.cons_ne_nil _ _) all stops ?_
    rintro d ⟨more, same⟩
    exact absurd same.symm (noPoint _)

theorem word_legal {c : Char} (letter : isNameStart c) (cs : List Char) :
    (word c cs).1.Legal (word c cs).2 := by
  have parts : ∀ d ∈ cs.takeWhile isNamePart, isNamePart d := fun _ => List.mem_takeWhile_imp
  have stops := stops_dropWhile isNamePart cs
  by_cases known : ∃ kind, (String.ofList (c :: cs.takeWhile isNamePart), kind) ∈ Kind.keywords
  · obtain ⟨kind, known⟩ := known
    have lexeme := Lexeme.keyword known stops
    rw [String.toList_ofList, ← (Kind.keyword_spelled known).1] at lexeme
    exact lexeme
  · have unknown : ∀ entry ∈ Kind.keywords,
        entry.1 ≠ String.ofList (c :: cs.takeWhile isNamePart) :=
      fun entry member same => known ⟨entry.2, same ▸ member⟩
    have lexeme := Lexeme.name letter parts unknown stops
    rw [← Kind.ofWord_eq_name unknown] at lexeme
    exact lexeme

theorem string_legal (cs : List Char) : (string cs).1.Legal (string cs).2 := by
  have inside := not_mem_takeWhile_ne '"' cs
  have stops := stops_dropWhile (· ≠ '"') cs
  unfold string
  split
  case h_1 => exact .of_filler (.openString inside)
  case h_2 quote rest found =>
    have closing : quote = '"' := by simpa using stops quote (by rw [found]; rfl)
    subst closing
    exact .string inside

theorem blockComment_legal (cs : List Char) : (blockComment cs).1.Legal (blockComment cs).2 := by
  unfold blockComment
  split
  case h_1 body rest closed =>
    exact .of_filler (.blockComment (reaches_of_closeComment closed (by decide)))
  case h_2 never =>
    refine .of_filler (.openComment ?_)
    rintro front ⟨more, rfl⟩ reaches
    have closed : closeComment 1 (front ++ more) = some (front, more) :=
      closeComment_of_reaches reaches (by decide) more
    rw [closed] at never
    cases never

theorem operator_legal {c : Char} {kind : Kind} (found : Kind.ofChar? c = some kind)
    (cs : List Char) (slash : c = '/' → '/' ∉ cs.head? ∧ '*' ∉ cs.head?) :
    (operator c cs).1.Legal (operator c cs).2 := by
  unfold operator
  split
  case h_1 two rest joined =>
    have pair : Kind.ofChars? [c, '='] = some two := joined
    refine .operator (Kind.mem_operators.mpr pair) ⟨fun d _ longer member => ?_, by simp⟩
    have none : Kind.ofChars? ([c, '='] ++ [d]) = none := rfl
    cases none.symm.trans (Kind.mem_operators.mp member)
  case h_2 alone =>
    rw [found]
    refine .operator (Kind.mem_operators.mpr found)
      ⟨fun d next longer member => ?_, fun d next => ⟨?_, ?_⟩⟩
    · obtain ⟨rest, rfl⟩ := List.head?_eq_some_iff.mp next
      have pair := Kind.mem_operators.mp member
      by_cases equal : d = '='
      · subst equal
        exact alone longer rest pair rfl
      · cases (Kind.ofChars?_pair equal).symm.trans pair
    · rintro ⟨⟩; exact (slash rfl).1 next
    · rintro ⟨⟩; exact (slash rfl).2 next

theorem slash_legal (cs : List Char) : (slash cs).1.Legal (slash cs).2 := by
  fun_cases slash cs with
  | case1 cs => exact blockComment_legal cs
  | case2 cs =>
    exact .of_filler (.lineComment (not_mem_takeWhile_ne '\n' cs) (stops_dropWhile _ cs))
  | case3 cs star line =>
    have slashes : '/' ∉ cs.head? ∧ '*' ∉ cs.head? := by
      constructor <;> intro next <;> obtain ⟨rest, rfl⟩ := List.head?_eq_some_iff.mp next
      · exact line rest rfl
      · exact star rest rfl
    exact operator_legal rfl cs fun _ => slashes

theorem first_legal (c : Char) (cs : List Char) : (first c cs).1.Legal (first c cs).2 := by
  by_cases line : c = '\n'
  · subst line
    exact .of_filler .newline
  by_cases blank : isBlank c
  · rw [first_blank cs blank]
    exact .of_blanks (forall_mem_run blank cs) _
  by_cases digit : c.isDigit
  · rw [first_digit cs digit]
    exact number_legal digit cs
  by_cases letter : isNameStart c
  · rw [first_letter cs letter]
    exact word_legal letter cs
  by_cases quote : c = '"'
  · subst quote
    exact string_legal cs
  by_cases slash : c = '/'
  · subst slash
    exact slash_legal cs
  cases found : Kind.ofChar? c with
  | some kind =>
    rw [first_operator cs found slash]
    exact operator_legal found cs fun same => absurd same slash
  | none =>
    have strange : Strange c := by
      refine ⟨line, by simpa using blank, by simpa using digit, by simpa using letter, quote, ?_⟩
      intro kind known
      rw [Kind.mem_operators] at known
      exact absurd known (by simp [Kind.ofChars?, found])
    rw [first_strange cs strange]
    exact .of_filler (.unexpected strange)

end Piece

open Piece

theorem scan_of_comment {text rest : List Char}
    (pieces : split (text ++ rest) = ⟨.comment, text⟩ :: split rest) (line : '\n' ∉ text) :
    scan (String.ofList (text ++ rest)) = scan (String.ofList rest) := by
  have lines : text.count '\n' = 0 := List.count_eq_zero.mpr line
  rw [scan, scan, String.toList_ofList, String.toList_ofList, pieces, List.count_append, lines,
    Nat.zero_add, numbered, lines]
  rfl

theorem scan_openings (rest : List Char) :
    scan (String.ofList (openings tooDeep ++ rest)) = scan (String.ofList rest) := by
  obtain ⟨n, full, marks⟩ := openings_tooDeep
  refine scan_of_comment ?_ (newline_not_mem_openings _)
  rw [marks]
  exact split_of_first (slash_block (reaches_openings full Nat.one_pos) rest)

end Scriptlet
