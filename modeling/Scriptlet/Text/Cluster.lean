import Scriptlet.Text.ClusterTables
import Scriptlet.Text.GraphemeExtend

/-!
Clusters: what a reader takes for one character, such as a letter with its accents, a Korean
syllable, a flag or a family of pictures. A text falls into clusters and no character is lost.
-/

namespace Scriptlet.Text

/-- What a character does where two clusters meet. -/
inductive ClusterRole where
  | newline
  | carriageReturn
  | control
  | extend
  | joiner
  | spacing
  | prepended
  | leading
  | vowel
  | trailing
  | openSyllable
  | closedSyllable
  | regional
  | pictograph
  | consonant
  | other
deriving DecidableEq, Repr

namespace ClusterRole

/-- Korean syllables follow each other by their ends: none, then 27 letters in turn. -/
def ofSyllable (n : Nat) : ClusterRole :=
  if (n - 0xac00) % 28 = 0 then openSyllable else closedSyllable

def ofRest (c : Char) : ClusterRole :=
  if inRanges c controls then control
  else if inRanges c graphemeExtend || inRanges c emojiModifiers then extend
  else if inRanges c spacingMarks then spacing
  else if inRanges c Text.prepended then prepended
  else if inRanges c leadingJamo then leading
  else if inRanges c vowelJamo then vowel
  else if inRanges c trailingJamo then trailing
  else if inRanges c pictographs then pictograph
  else if inRanges c conjunctConsonants then consonant
  else other

def of (c : Char) : ClusterRole :=
  let n := c.toNat
  if 0x20 ≤ n ∧ n < 0x7f then other
  else if n = 0x0a then newline
  else if n = 0x0d then carriageReturn
  else if n = 0x200d then joiner
  else if 0x1f1e6 ≤ n ∧ n ≤ 0x1f1ff then regional
  else if 0xac00 ≤ n ∧ n ≤ 0xd7a3 then ofSyllable n
  else ofRest c

/-- Stands apart from both its neighbours. -/
def isApart : ClusterRole → Bool
  | newline | carriageReturn | control => true
  | _ => false

end ClusterRole

open ClusterRole (of)

/-- Whether characters, the last first, end in a picture with its extenders. -/
def endsInPictograph (earlier : List Char) : Bool :=
  (earlier.dropWhile fun c => of c = .extend).head?.any fun c => of c = .pictograph

/-- Stays between two consonants that are linked: an extender or a joiner, but not the sign
that keeps letters apart. -/
def isConjunctPart (c : Char) : Bool := (of c = .extend && c != '\u200c') || of c = .joiner

/-- Whether characters, the last first, end in a consonant that is linked to the next. -/
def endsInLink (before : List Char) : Bool :=
  (before.takeWhile isConjunctPart).any (inRanges · conjunctLinkers) &&
    (before.dropWhile isConjunctPart).head?.any fun c => of c = .consonant

/-- Whether characters, the last first, end in half a flag: flags are pairs of letters. -/
def endsInHalfFlag (before : List Char) : Bool :=
  (before.takeWhile fun c => of c = .regional).length % 2 = 1

/-- Whether the cluster of `last` and of the characters `earlier` before it, the nearest first,
goes on with `next`. -/
def goesOn (earlier : List Char) (last next : Char) : Bool :=
  match of last, of next with
  | .carriageReturn, .newline => true
  | before, after =>
    if before.isApart || after.isApart then false
    else
      match before, after with
      | .leading, .leading | .leading, .vowel | .leading, .openSyllable => true
      | .leading, .closedSyllable => true
      | .openSyllable, .vowel | .openSyllable, .trailing => true
      | .vowel, .vowel | .vowel, .trailing => true
      | .closedSyllable, .trailing | .trailing, .trailing => true
      | _, .extend | _, .joiner | _, .spacing => true
      | .prepended, _ => true
      | .joiner, .pictograph => endsInPictograph earlier
      | .regional, .regional => endsInHalfFlag (last :: earlier)
      | _, .consonant => endsInLink (last :: earlier)
      | _, _ => false

/-- The clusters of a text of which one has begun: `last` is its last character so far, and
`earlier` are those before it, the nearest first. -/
def clustersFrom (earlier : List Char) (last : Char) : List Char → List (List Char)
  | [] => [(last :: earlier).reverse]
  | c :: cs =>
    if goesOn earlier last c then clustersFrom (last :: earlier) c cs
    else (last :: earlier).reverse :: clustersFrom [] c cs

def clusters : List Char → List (List Char)
  | [] => []
  | c :: cs => clustersFrom [] c cs

end Scriptlet.Text
