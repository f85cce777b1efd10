import Scriptlet.Number.Shortest
import Scriptlet.Proofs.Number.Bits
import Scriptlet.Proofs.Number.Digits

namespace Scriptlet

attribute [local instance] Binary64.corePow

theorem numberText_signed {x : Float}
    (finite : x.toBits.toNat % 2 ^ (63 : Nat) < Binary64.infinity) :
    ∃ d : Decimal, if 2 ^ (63 : Nat) ≤ x.toBits.toNat
      then numberText x = "-" ++ String.ofList d.digits ∧ x = -d.toFloat
      else numberText x = String.ofList d.digits ∧ x = d.toFloat := by
  refine ⟨Shortest.decimal (x.toBits.toNat % 2 ^ (63 : Nat)), ?_⟩
  have signed := Binary64.eq_magnitude_or_neg finite
  rw [Decimal.toFloat, Shortest.bits_decimal finite]
  simp only [numberText, if_neg (Nat.lt_asymm finite), if_neg (Nat.ne_of_lt finite)]
  split at signed
  case isTrue negative => rw [if_pos negative, if_pos negative]; exact ⟨rfl, signed⟩
  case isFalse positive => rw [if_neg positive, if_neg positive]; exact ⟨rfl, signed⟩

theorem numberText_of_finite {x : Float} (finite : x.isFinite) :
    ∃ d : Decimal, numberText x = String.ofList d.digits ∧ x = d.toFloat ∨
      numberText x = "-" ++ String.ofList d.digits ∧ x = -d.toFloat := by
  obtain ⟨d, signed⟩ := numberText_signed ((Binary64.isFinite_iff x).mp finite)
  split at signed
  case isTrue => exact ⟨d, .inr signed⟩
  case isFalse => exact ⟨d, .inl signed⟩

theorem Decimal.toBits_lt {d : Decimal} (finite : d.toFloat.isFinite) :
    d.toFloat.toBits.toNat < Binary64.infinity := by
  have most : d.bits ≤ Binary64.infinity := Nat.min_le_right _ _
  rcases Nat.lt_or_eq_of_le most with below | infinite
  · rwa [toFloat, Binary64.toBits_ofBits below]
  · rw [toFloat, infinite] at finite
    exact absurd finite (by decide)

theorem numberText_of_unsigned {x : Float} (unsigned : x.toBits.toNat < Binary64.infinity) :
    ∃ d : Decimal, numberText x = String.ofList d.digits ∧ x = d.toFloat := by
  obtain ⟨d, signed⟩ := numberText_signed (Nat.lt_of_le_of_lt (Nat.mod_le _ _) unsigned)
  rw [if_neg (Nat.not_le.mpr (Nat.lt_trans unsigned (by decide)))] at signed
  exact ⟨d, signed⟩

end Scriptlet
