/-!
Bit patterns of non-negative doubles. A finite double is a whole number of units, and its bits
hold that number: `k * 2^52 + m` stands for `m * 2^k` units. Main statement: every finite
magnitude is its own nearest double.
-/

namespace Scriptlet.Binary64

/-- Powers of the core library, also where another instance is in scope. -/
@[reducible] def corePow : Pow Nat Nat := instPowNat

attribute [local instance] corePow

/-- Every finite double can be written out with so many places, in binary or in decimal. -/
def places : Nat := 1074

/-- A unit is the least positive double. -/
def unitsPerOne : Nat := 2 ^ places

/-- The bits of positive infinity; every smaller pattern is a finite magnitude. -/
def infinity : Nat := 2047 * 2 ^ (52 : Nat)

/-- The whole number nearest to `n / d`, a half going to the even neighbour. -/
def roundDiv (n d : Nat) : Nat :=
  let q := n / d
  if 2 * (n % d) < d ∨ 2 * (n % d) = d ∧ q % 2 = 0 then q else q + 1

/-- The bits of the double nearest to `n / d`, a half going to the even neighbour. A carry
out of the significand lands in the exponent, where it belongs. -/
def nearest (n d : Nat) : Nat :=
  let v := n * unitsPerOne
  let k := (v / d).log2 - 52
  min (k * 2 ^ (52 : Nat) + roundDiv v (d * 2 ^ k)) infinity

def exponent (bits : Nat) : Nat := bits / 2 ^ (52 : Nat) - 1

def significand (bits : Nat) : Nat := bits - exponent bits * 2 ^ (52 : Nat)

/-- The value of a finite magnitude in units. -/
def units (bits : Nat) : Nat := significand bits * 2 ^ exponent bits

theorem unitsPerOne_pos : 0 < unitsPerOne := Nat.two_pow_pos places

theorem roundDiv_mul_self (m : Nat) {d : Nat} (pos : 0 < d) : roundDiv (m * d) d = m := by
  simp [roundDiv, Nat.mul_div_cancel m pos, pos]

theorem roundDiv_mul_right (n d : Nat) {c : Nat} (pos : 0 < c) :
    roundDiv (n * c) (d * c) = roundDiv n d := by
  have less : 2 * (n % d * c) < d * c ↔ 2 * (n % d) < d := by
    rw [← Nat.mul_assoc, Nat.mul_lt_mul_right pos]
  have half : 2 * (n % d * c) = d * c ↔ 2 * (n % d) = d := by
    rw [← Nat.mul_assoc, Nat.mul_right_cancel_iff pos]
  simp only [roundDiv, Nat.mul_div_mul_right _ _ pos, Nat.mul_mod_mul_right, less, half]

theorem nearest_mul_right (n d : Nat) {c : Nat} (pos : 0 < c) :
    nearest (n * c) (d * c) = nearest n d := by
  simp only [nearest, Nat.mul_right_comm _ c, Nat.mul_div_mul_right _ _ pos,
    roundDiv_mul_right _ _ pos]

theorem nearest_decimal (n k : Nat) : nearest (n * 5 ^ k) (10 ^ k) = nearest n (2 ^ k) := by
  rw [show 10 ^ k = 2 ^ k * 5 ^ k from Nat.mul_pow 2 5 k,
    nearest_mul_right _ _ (Nat.pow_pos (by decide))]

theorem log2_units (bits : Nat) : (units bits).log2 - 52 = exponent bits := by
  by_cases normal : bits / 2 ^ 52 ≤ 1
  · have flat : exponent bits = 0 := by unfold exponent; omega
    have small : units bits < 2 ^ 53 := by
      simp only [units, significand, flat, Nat.zero_mul, Nat.sub_zero, Nat.pow_zero, Nat.mul_one]
      omega
    rw [flat]
    by_cases zero : units bits = 0
    · simp [zero]
    · have := (Nat.log2_lt zero).mpr small
      omega
  · have lower : 2 ^ 52 ≤ significand bits := by unfold significand exponent; omega
    have upper : significand bits < 2 ^ 53 := by unfold significand exponent; omega
    have nonzero : units bits ≠ 0 :=
      Nat.mul_ne_zero (by omega) (Nat.ne_of_gt (Nat.two_pow_pos _))
    have top : (units bits).log2 = 52 + exponent bits := by
      apply Nat.le_antisymm
      · apply Nat.le_of_lt_succ
        apply (Nat.log2_lt nonzero).mpr
        rw [Nat.succ_eq_add_one, Nat.add_right_comm, Nat.pow_add]
        exact Nat.mul_lt_mul_of_pos_right upper (Nat.two_pow_pos _)
      · apply (Nat.le_log2 nonzero).mpr
        rw [Nat.pow_add]
        exact Nat.mul_le_mul_right _ lower
    omega

theorem nearest_units {bits : Nat} (finite : bits < infinity) :
    nearest (units bits) unitsPerOne = bits := by
  have regroup : units bits * unitsPerOne =
      significand bits * (unitsPerOne * 2 ^ exponent bits) := by
    rw [units, Nat.mul_assoc, Nat.mul_comm (2 ^ _)]
  have whole : exponent bits * 2 ^ 52 + significand bits = bits := by
    unfold significand exponent; omega
  simp only [nearest]
  rw [Nat.mul_div_cancel _ unitsPerOne_pos, log2_units, regroup,
    roundDiv_mul_self _ (Nat.mul_pos unitsPerOne_pos (Nat.two_pow_pos _)), whole]
  exact Nat.min_eq_left (Nat.le_of_lt finite)

end Scriptlet.Binary64
