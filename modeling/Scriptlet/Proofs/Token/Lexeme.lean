import Scriptlet.Token.Scan
import Mathlib.Data.List.TakeWhile

/-!
What the tokens of a source text and the gaps between them look like. A rule says of a piece of
text, and of the text behind it, that the piece stands there whole: the scanner is not mentioned.
-/

namespace Scriptlet

def Stops (p : Char → Bool) (rest : List Char) : Prop := ∀ c ∈ rest.head?, p c = false

/-- Inside a comment the text takes the depth from `depth` to one of `ends`, and no earlier. -/
inductive Reaches (ends : List Nat) : (depth : Nat) → List Char → Prop where
  | done {depth} : depth ∈ ends → Reaches ends depth []
  | opening {depth cs} : depth + 1 ∉ ends → Reaches ends (depth + 2) cs →
      Reaches ends (depth + 1) ('/' :: '*' :: cs)
  | closing {depth cs} : depth + 1 ∉ ends → Reaches ends depth cs →
      Reaches ends (depth + 1) ('*' :: '/' :: cs)
  | other {depth c cs} : depth + 1 ∉ ends → ¬ ['/', '*'] <+: c :: cs → ¬ ['*', '/'] <+: c :: cs →
      Reaches ends (depth + 1) cs → Reaches ends (depth + 1) (c :: cs)

/-- The number of levels, two to the power of 31, at which a count of 32 bits turns negative. -/
def tooDeep : Nat := 2147483648

/-- The depths at which the scanner leaves a comment. -/
def commentEnds : List Nat := [0, tooDeep]

def Kind.operators : List (List Char × Kind) :=
  [(['('], leftParen), ([')'], rightParen), (['{'], leftBrace), (['}'], rightBrace),
    ([','], comma), (['.'], dot), (['-'], minus), (['+'], plus), ([';'], semicolon),
    (['/'], slash), (['*'], star), (['?'], question), ([':'], colon), (['!'], bang),
    (['='], equal), (['>'], greater), (['<'], less), (['!', '='], bangEqual),
    (['=', '='], equalEqual), (['>', '='], greaterEqual), (['<', '='], lessEqual)]

/-- A character that starts neither a token nor anything that may stand between two. -/
structure Strange (c : Char) : Prop where
  line : c ≠ '\n'
  blank : isBlank c = false
  digit : c.isDigit = false
  letter : isNameStart c = false
  quote : c ≠ '"'
  operator : ∀ kind, ([c], kind) ∉ Kind.operators

/-- One of the things that may stand between two tokens, with the text behind it. A comment is
over at one of the depths `ends`. -/
inductive Filler (ends : List Nat) : List Char → List Char → Prop where
  | blank {c rest} : isBlank c → Filler ends [c] rest
  | newline {rest} : Filler ends ['\n'] rest
  | lineComment {body rest} : '\n' ∉ body → Stops (· ≠ '\n') rest →
      Filler ends ('/' :: '/' :: body) rest
  | blockComment {body rest} : Reaches ends 1 body → Filler ends ('/' :: '*' :: body) rest
  | unexpected {c rest} : Strange c → Filler ends [c] rest
  | openString {body} : '"' ∉ body → Filler ends ('"' :: body) []
  | openComment {body} : (∀ front, front <+: body → ¬ Reaches ends 1 front) →
      Filler ends ('/' :: '*' :: body) []

/-- All that stands between two tokens. -/
inductive Gap (ends : List Nat) : List Char → List Char → Prop where
  | nil {rest} : Gap ends [] rest
  | cons {text more rest} : Filler ends text (more ++ rest) → Gap ends more rest →
      Gap ends (text ++ more) rest

/-- The text behind an operator neither makes another one of it nor starts a comment with it. -/
structure Longest (chars rest : List Char) : Prop where
  operator : ∀ d ∈ rest.head?, ∀ kind, (chars ++ [d], kind) ∉ Kind.operators
  comment : ∀ d ∈ rest.head?, chars ++ [d] ≠ ['/', '/'] ∧ chars ++ [d] ≠ ['/', '*']

/-- How a token is spelled by its kind and its value, and that the text behind it cannot make it
any longer. -/
inductive Lexeme : Kind → Option Literal → List Char → List Char → Prop where
  | name {c cs rest} : isNameStart c → (∀ d ∈ cs, isNamePart d) →
      (∀ entry ∈ Kind.keywords, entry.1 ≠ String.ofList (c :: cs)) → Stops isNamePart rest →
      Lexeme .name none (c :: cs) rest
  | keyword {word kind rest} : (word, kind) ∈ Kind.keywords → Stops isNamePart rest →
      Lexeme kind none word.toList rest
  | whole {digits rest} : digits ≠ [] → (∀ d ∈ digits, d.isDigit) → Stops Char.isDigit rest →
      (∀ d, ['.', d] <+: rest → d.isDigit = false) →
      Lexeme .number (some (.number (Decimal.ofDigits digits []).toFloat)) digits rest
  | fraction {digits places rest} : digits ≠ [] → (∀ d ∈ digits, d.isDigit) →
      places ≠ [] → (∀ d ∈ places, d.isDigit) → Stops Char.isDigit rest →
      Lexeme .number (some (.number (Decimal.ofDigits digits places).toFloat))
        (digits ++ '.' :: places) rest
  | string {body rest} : '"' ∉ body →
      Lexeme .string (some (.string (String.ofList body))) ('"' :: body ++ ['"']) rest
  | operator {chars kind rest} : (chars, kind) ∈ Kind.operators → Longest chars rest →
      Lexeme kind none chars rest

section Runs

variable {p : Char → Bool} {cs rest : List Char}

theorem takeWhile_of_stops (all : ∀ c ∈ cs, p c) (stops : Stops p rest) :
    (cs ++ rest).takeWhile p = cs := by
  rw [List.takeWhile_append_of_pos all]
  cases rest with
  | nil => simp
  | cons c rest => simp [stops c rfl]

theorem dropWhile_of_stops (all : ∀ c ∈ cs, p c) (stops : Stops p rest) :
    (cs ++ rest).dropWhile p = rest := by
  rw [List.dropWhile_append_of_pos all]
  cases rest with
  | nil => rfl
  | cons c rest => simp [stops c rfl]

theorem forall_mem_run {c : Char} (holds : p c) (cs : List Char) :
    ∀ d ∈ c :: cs.takeWhile p, p d :=
  List.forall_mem_cons.mpr ⟨holds, fun _ => List.mem_takeWhile_imp⟩

theorem stops_nil (p : Char → Bool) : Stops p [] := by simp [Stops]

theorem stops_dropWhile (p : Char → Bool) (cs : List Char) : Stops p (cs.dropWhile p) := by
  induction cs with
  | nil => exact stops_nil p
  | cons c cs ih =>
    rw [List.dropWhile_cons]
    split
    · exact ih
    · rintro d ⟨⟩; simpa using ‹¬ p c = true›

theorem all_ne {d : Char} (inside : d ∉ cs) : ∀ c ∈ cs, decide (c ≠ d) := fun c member => by
  simpa using ne_of_mem_of_not_mem member inside

theorem not_mem_takeWhile_ne (d : Char) (cs : List Char) : d ∉ cs.takeWhile (· ≠ d) :=
  fun member => by simpa using List.mem_takeWhile_imp member

end Runs

section

variable {ends : List Nat} {text more rest : List Char}

theorem Gap.of_blanks {blanks : List Char} (all : ∀ c ∈ blanks, isBlank c) (rest : List Char) :
    Gap ends blanks rest := by
  induction blanks with
  | nil => exact .nil
  | cons c cs ih =>
    obtain ⟨blank, all⟩ := List.forall_mem_cons.mp all
    exact .cons (.blank blank) (ih all)

theorem Gap.of_filler (filler : Filler ends text rest) : Gap ends text rest := by
  have alone : Gap ends (text ++ []) rest := .cons filler .nil
  rwa [List.append_nil] at alone

theorem Gap.append (gap : Gap ends text (more ++ rest)) (behind : Gap ends more rest) :
    Gap ends (text ++ more) rest := by
  generalize whole : more ++ rest = all at gap
  induction gap with
  | nil => exact behind
  | cons filler _ ih =>
    rw [List.append_assoc]
    refine .cons ?_ (ih whole)
    rw [List.append_assoc, whole]
    exact filler

end

namespace Kind

def ofChars? : List Char → Option Kind
  | [c] => ofChar? c
  | [c, '='] => withEqual? c
  | _ => none

theorem mem_operators {chars : List Char} {kind : Kind} :
    (chars, kind) ∈ operators ↔ ofChars? chars = some kind := by
  constructor
  · intro member
    have all : ∀ entry ∈ operators, ofChars? entry.1 = some entry.2 := by decide
    exact all _ member
  · intro found
    unfold ofChars? at found
    split at found
    · unfold ofChar? at found
      split at found <;> cases found <;> decide
    · unfold withEqual? at found
      split at found <;> cases found <;> decide
    · cases found

theorem ofChars?_pair {c d : Char} (other : d ≠ '=') : ofChars? [c, d] = none := by
  unfold ofChars?
  split
  · simp_all
  · simp_all
  · rfl

theorem withEqual?_of_ofChar? {c : Char} (none : ofChar? c = none) : withEqual? c = .none := by
  unfold withEqual?
  split <;> first | cases none | rfl

theorem keyword_plain {word : String} {kind : Kind} (known : (word, kind) ∈ keywords) :
    kind ≠ .endMark ∧ kind ≠ .string ∧ kind ≠ .number := by
  have all : ∀ entry ∈ keywords,
      entry.2 ≠ .endMark ∧ entry.2 ≠ .string ∧ entry.2 ≠ .number := by decide
  exact all _ known

theorem operator_plain {chars : List Char} {kind : Kind} (known : (chars, kind) ∈ operators) :
    kind ≠ .endMark ∧ kind ≠ .string ∧ kind ≠ .number := by
  have all : ∀ entry ∈ operators,
      entry.2 ≠ .endMark ∧ entry.2 ≠ .string ∧ entry.2 ≠ .number := by decide
  exact all _ known

end Kind

/-- Strings and numbers have a value, all others have none, and none is an end mark. -/
theorem Lexeme.valued {kind : Kind} {literal : Option Literal} {text rest : List Char}
    (lexeme : Lexeme kind literal text rest) :
    kind ≠ .endMark ∧ (literal.isSome ↔ kind = .string ∨ kind = .number) := by
  cases lexeme with
  | keyword known _ => simp [Kind.keyword_plain known]
  | operator known _ => simp [Kind.operator_plain known]
  | _ => simp

end Scriptlet
