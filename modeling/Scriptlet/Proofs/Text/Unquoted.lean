import Scriptlet.Text.Quoted
import Mathlib.Data.List.TakeWhile

/-!
Quoted text read back. An escape tells by itself where it ends, so the characters of a quoted text
can be read one by one up to the closing quote, whatever stands behind it.
-/

namespace Scriptlet.Text

def hexValue (c : Char) : Nat := if c.isDigit then c.toNat - '0'.toNat else c.toNat - 'a'.toNat + 10

def ofHex (digits : List Char) : Nat := digits.foldl (fun n c => 16 * n + hexValue c) 0

theorem digitChar_sixteen {n : Nat} (small : n < 16) :
    hexValue (Nat.digitChar n) = n ∧ Nat.digitChar n ≠ '}' := by
  have all : ∀ n < 16, hexValue (Nat.digitChar n) = n ∧ Nat.digitChar n ≠ '}' := by decide
  exact all n small

theorem ofHex_toDigits (n : Nat) : ofHex (Nat.toDigits 16 n) = n := by
  induction n using Nat.strongRecOn with
  | _ n ih =>
    rw [Nat.toDigits_eq_if (by decide)]
    split
    case isTrue small =>
      simp only [ofHex, List.foldl_cons, List.foldl_nil, (digitChar_sixteen small).1]
      omega
    case isFalse big =>
      have last := (digitChar_sixteen (Nat.mod_lt n (by decide))).1
      have front := ih (n / 16) (by omega)
      rw [ofHex] at front ⊢
      rw [List.foldl_append, front, List.foldl_cons, List.foldl_nil, last]
      omega

theorem brace_not_mem_toDigits (n : Nat) : '}' ∉ Nat.toDigits 16 n := by
  induction n using Nat.strongRecOn with
  | _ n ih =>
    rw [Nat.toDigits_eq_if (by decide)]
    split
    case isTrue small => simp [(digitChar_sixteen small).2.symm]
    case isFalse big =>
      have last := (digitChar_sixteen (Nat.mod_lt n (by decide))).2
      simp [ih (n / 16) (by omega), last.symm]

namespace Quoted

/-- The character that is written behind a backslash, and what follows it. -/
def escaped : List Char → Option (Char × List Char)
  | '0' :: cs => some ('\x00', cs)
  | 't' :: cs => some ('\t', cs)
  | 'r' :: cs => some ('\r', cs)
  | 'n' :: cs => some ('\n', cs)
  | 'u' :: cs =>
    let digits := cs.tail.takeWhile (· ≠ '}')
    some (Char.ofNat (ofHex digits), cs.drop (digits.length + 2))
  | c :: cs => some (c, cs)
  | [] => none

/-- The first character of a quoted text and what follows it; none at the closing quote. -/
def unescape : List Char → Option (Char × List Char)
  | '\\' :: cs => escaped cs
  | '"' :: _ => none
  | c :: cs => some (c, cs)
  | [] => none

theorem unescape_escape (c : Char) (rest : List Char) :
    unescape (escape c ++ rest) = some (c, rest) := by
  fun_cases escape c with
  | case7 c _ _ _ _ quote backslash visible =>
    rw [List.singleton_append, unescape]
    · exact backslash
    · exact quote
  | case8 c _ _ _ _ quote backslash visible =>
    have inside : ∀ d ∈ Nat.toDigits 16 c.toNat, decide (d ≠ '}') := fun d member => by
      simpa using ne_of_mem_of_not_mem member (brace_not_mem_toDigits _)
    have digits : (Nat.toDigits 16 c.toNat ++ '}' :: rest).takeWhile (· ≠ '}') =
        Nat.toDigits 16 c.toNat := by
      rw [List.takeWhile_append_of_pos inside]
      simp
    simp only [List.append_assoc, List.cons_append, List.nil_append, unescape, escaped,
      List.tail_cons, digits, ofHex_toDigits, Char.ofNat_toNat]
    simp
  | _ => rfl

/-- A quoted text ends at its closing quote, so two of them with anything behind are the same only
if the texts are. -/
theorem encode_append_inj {s t rest more : List Char}
    (same : encode s ++ rest = encode t ++ more) : s = t ∧ rest = more := by
  simp only [encode, List.cons_append, List.cons.injEq, true_and, List.append_assoc,
    List.nil_append] at same
  induction s generalizing t with
  | nil =>
    cases t with
    | nil => exact ⟨rfl, (List.cons.inj same).2⟩
    | cons d t =>
      have read := unescape_escape d (t.flatMap escape ++ '"' :: more)
      rw [← List.append_assoc, ← List.flatMap_cons, ← same] at read
      cases read
  | cons c s ih =>
    have read := unescape_escape c (s.flatMap escape ++ '"' :: rest)
    rw [← List.append_assoc, ← List.flatMap_cons, same] at read
    cases t with
    | nil => cases read
    | cons d t =>
      rw [List.flatMap_cons, List.append_assoc, unescape_escape] at read
      obtain ⟨rfl, behind⟩ := Prod.mk.inj (Option.some.inj read)
      obtain ⟨rfl, rfl⟩ := ih behind.symm
      exact ⟨rfl, rfl⟩

end Quoted

end Scriptlet.Text
