import Scriptlet.Number.Decimal

/-!
The text of a double: the fewest decimal digits that read back as the same double, written
positionally whatever the magnitude.
-/

namespace Scriptlet.Shortest

open Binary64 (places)

attribute [local instance] Binary64.corePow

def onGrid (c t : Nat) : Decimal :=
  if t ≤ places then ⟨c, places - t⟩ else ⟨c * 10 ^ (t - places), 0⟩

/-- Of the two multiples of `10^t` around `n`, the one that reads back as `bits`; of two such
the nearer, the upper one if they are equally near. -/
def neighbour (bits n t : Nat) : Option Decimal :=
  let c := n / 10 ^ t
  let below := onGrid c t
  let above := onGrid (c + 1) t
  if below.bits = bits ∧ (2 * n < (2 * c + 1) * 10 ^ t ∨ above.bits ≠ bits) then some below
  else if above.bits = bits then some above
  else none

/-- Searches from the grid of `10^t` to finer ones; on the finest the value itself is a point. -/
def search (bits n : Nat) : Nat → Decimal
  | 0 => onGrid n 0
  | t + 1 => (neighbour bits n (t + 1)).getD (search bits n t)

/-- The coarsest decimal grid with a point that reads back as `bits` gives the fewest digits.
The search starts where `n` has at most one: `log10 2` is less than 0.30103. -/
def decimal (bits : Nat) : Decimal :=
  let n := Binary64.units bits * 5 ^ places
  (search bits n (n.log2 * 30103 / 100000 + 1)).trim

theorem onGrid_zero (c : Nat) : onGrid c 0 = ⟨c, places⟩ := by
  rw [onGrid, if_pos (Nat.zero_le _), Nat.sub_zero]

theorem bits_of_neighbour {bits n t : Nat} {d : Decimal} (found : neighbour bits n t = some d) :
    d.bits = bits := by
  simp only [neighbour] at found
  split at found
  · rename_i below; cases found; exact below.1
  · split at found
    · rename_i above; cases found; exact above
    · cases found

theorem bits_search {bits n : Nat} (exact : (onGrid n 0).bits = bits) (t : Nat) :
    (search bits n t).bits = bits := by
  induction t with
  | zero => exact exact
  | succ t ih =>
    unfold search
    cases h : neighbour bits n (t + 1) with
    | none => exact ih
    | some d => exact bits_of_neighbour h

/-- The digits of a finite magnitude read back as the same magnitude. -/
theorem bits_decimal {bits : Nat} (finite : bits < Binary64.infinity) :
    (decimal bits).bits = bits := by
  simp only [decimal, Decimal.bits_trim]
  apply bits_search
  rw [onGrid_zero]
  exact (Binary64.nearest_decimal _ places).trans (Binary64.nearest_units finite)

end Scriptlet.Shortest

namespace Scriptlet

attribute [local instance] Binary64.corePow

/-- A number in text. NaN has no sign; digits are positional whatever the magnitude. -/
def numberText (x : Float) : String :=
  let bits := x.toBits.toNat
  let magnitude := bits % 2 ^ (63 : Nat)
  if Binary64.infinity < magnitude then "NaN"
  else
    let digits :=
      if magnitude = Binary64.infinity then "inf"
      else String.ofList (Shortest.decimal magnitude).digits
    if 2 ^ (63 : Nat) ≤ bits then "-" ++ digits else digits

end Scriptlet
