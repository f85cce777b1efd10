import Scriptlet.Number.Binary64

/-!
Positional decimals: how the digits of a source text denote a double, and how the digits of
a double are laid out.
-/

namespace Scriptlet

/-- The value `coefficient / 10^places`. -/
structure Decimal where
  coefficient : Nat
  places : Nat
deriving DecidableEq, Repr

namespace Decimal

attribute [local instance] Binary64.corePow

/-- The decimal written `whole.fraction`; an empty fraction stands for no point at all. -/
def ofDigits (whole fraction : List Char) : Decimal :=
  ⟨Nat.ofDigitChars 10 (whole ++ fraction) 0, fraction.length⟩

def bits (d : Decimal) : Nat := Binary64.nearest d.coefficient (10 ^ d.places)

def toFloat (d : Decimal) : Float := Float.ofBits (UInt64.ofNat d.bits)

/-- The decimal `coefficient / 10^places` without the zeros that end its fraction. -/
def trimmed (coefficient : Nat) : (places : Nat) → Decimal
  | 0 => ⟨coefficient, 0⟩
  | places + 1 =>
    if coefficient % 10 = 0 then trimmed (coefficient / 10) places
    else ⟨coefficient, places + 1⟩

def trim (d : Decimal) : Decimal := trimmed d.coefficient d.places

theorem bits_trim (d : Decimal) : d.trim.bits = d.bits := by
  obtain ⟨coefficient, places⟩ := d
  unfold trim
  fun_induction trimmed coefficient places with
  | case1 => rfl
  | case2 coefficient places zero ih =>
    rw [ih]
    simp only [bits]
    rw [← Binary64.nearest_mul_right _ _ (by decide : 0 < 10), ← Nat.pow_succ,
      Nat.div_mul_cancel (Nat.dvd_of_mod_eq_zero zero)]
  | case3 => rfl

/-- The last `places` digits of `n`, zeros included. -/
def fraction (n places : Nat) : List Char :=
  let digits := Nat.toDigits 10 (n % 10 ^ places)
  List.replicate (places - digits.length) '0' ++ digits

/-- All digits of the whole part, then a point and the fraction if there is one. -/
def digits (d : Decimal) : List Char :=
  let whole := Nat.toDigits 10 (d.coefficient / 10 ^ d.places)
  if d.places = 0 then whole else whole ++ '.' :: fraction d.coefficient d.places

end Decimal

end Scriptlet
