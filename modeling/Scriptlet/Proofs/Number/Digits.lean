import Scriptlet.Proofs.Token.Lexeme

namespace Scriptlet.Decimal

attribute [local instance] Binary64.corePow

theorem isDigit_of_mem_fraction {n places : Nat} {c : Char} (member : c ∈ fraction n places) :
    c.isDigit := by
  rcases List.mem_append.mp member with zero | digit
  · rw [List.eq_of_mem_replicate zero]
    rfl
  · exact Nat.isDigit_of_mem_toDigits (by decide) (by decide) digit

theorem length_fraction (n : Nat) {places : Nat} (some : 0 < places) :
    (fraction n places).length = places := by
  have fits : (Nat.toDigits 10 (n % 10 ^ places)).length ≤ places :=
    (Nat.length_toDigits_le_iff (by decide) some).mpr (Nat.mod_lt _ (Nat.pow_pos (by decide)))
  simp only [fraction, List.length_append, List.length_replicate]
  omega

theorem ofDigitChars_fraction (n places init : Nat) (some : 0 < places) :
    Nat.ofDigitChars 10 (fraction n places) init = 10 ^ places * init + n % 10 ^ places := by
  rw [Nat.ofDigitChars_eq_ofDigitChars_zero, length_fraction n some, fraction,
    Nat.ofDigitChars_append, Nat.ofDigitChars_replicate_zero, Nat.mul_zero,
    Nat.ofDigitChars_ten_toDigits]

theorem ofDigits_fraction (n : Nat) {places : Nat} (some : 0 < places) :
    ofDigits (Nat.toDigits 10 (n / 10 ^ places)) (fraction n places) = ⟨n, places⟩ := by
  rw [ofDigits, Nat.ofDigitChars_append, Nat.ofDigitChars_ten_toDigits,
    ofDigitChars_fraction _ _ _ some, length_fraction n some, Nat.div_add_mod]

theorem ofDigits_whole (n : Nat) : ofDigits (Nat.toDigits 10 n) [] = ⟨n, 0⟩ := by
  rw [ofDigits, List.append_nil, Nat.ofDigitChars_ten_toDigits, List.length_nil]

theorem lexeme_digits (d : Decimal) {rest : List Char} (stops : Stops Char.isDigit rest)
    (point : ∀ c, ['.', c] <+: rest → c.isDigit = false) :
    Lexeme .number (some (.number d.toFloat)) d.digits rest := by
  obtain ⟨n, places⟩ := d
  have whole (n : Nat) : ∀ c ∈ Nat.toDigits 10 n, c.isDigit := fun c =>
    Nat.isDigit_of_mem_toDigits (by decide) (by decide)
  unfold digits
  split
  case isTrue none =>
    obtain rfl : places = 0 := none
    have lexeme := Lexeme.whole Nat.toDigits_ne_nil (whole n) stops point
    rw [ofDigits_whole] at lexeme
    simpa using lexeme
  case isFalse some =>
    have some : 0 < places := Nat.pos_of_ne_zero some
    have long : fraction n places ≠ [] :=
      List.ne_nil_of_length_pos (by rwa [length_fraction n some])
    have lexeme := Lexeme.fraction Nat.toDigits_ne_nil (whole (n / 10 ^ places)) long
      (fun _ => isDigit_of_mem_fraction) stops
    rwa [ofDigits_fraction n some] at lexeme

end Scriptlet.Decimal
