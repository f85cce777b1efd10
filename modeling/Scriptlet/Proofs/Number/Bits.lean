import Mathlib.Data.List.Basic
import Scriptlet.Number.Binary64

namespace Scriptlet.Binary64

open Float.Model Float.Model.UnpackedFloat

attribute [local instance] corePow

def bitsOf (s : Sign) (e : BitVec 11) (m : BitVec 52) : BitVec 64 :=
  packComponents Format.binary64 s e m

theorem toBitVec_ofBitVec (v : BitVec 1) : (Sign.ofBitVec v).toBitVec = v := by
  revert v
  decide

theorem ofBitVec_toBitVec (s : Sign) : Sign.ofBitVec s.toBitVec = s := by cases s <;> rfl

theorem exists_bitsOf (b : BitVec 64) : ∃ s e m, b = bitsOf s e m := by
  refine ⟨Sign.ofBitVec (@unpackSign Format.binary64 b), @unpackExponent Format.binary64 b,
    @unpackMantissa Format.binary64 b, ?_⟩
  delta unpackSign
  simp only [bitsOf, packComponents, toBitVec_ofBitVec, unpackExponent, unpackMantissa,
    BitVec.extractLsb]
  ext i hi
  grind

theorem toNat_bitsOf (s : Sign) (e : BitVec 11) (m : BitVec 52) :
    (bitsOf s e m).toNat =
      s.toBitVec.toNat * 2 ^ (63 : Nat) + e.toNat * 2 ^ (52 : Nat) + m.toNat := by
  have he := e.isLt
  have hm := m.isLt
  simp only [bitsOf, packComponents, BitVec.toNat_append]
  rw [← Nat.shiftLeft_add_eq_or_of_lt he, ← Nat.shiftLeft_add_eq_or_of_lt hm,
    Nat.shiftLeft_eq, Nat.shiftLeft_eq]
  omega

theorem unpackSign_bitsOf (s : Sign) (e : BitVec 11) (m : BitVec 52) :
    @unpackSign Format.binary64 (bitsOf s e m) = s.toBitVec := by
  delta unpackSign
  simp only [bitsOf, packComponents, BitVec.extractLsb]
  ext i hi
  grind

theorem unpackExponent_bitsOf (s : Sign) (e : BitVec 11) (m : BitVec 52) :
    @unpackExponent Format.binary64 (bitsOf s e m) = e := unpackExponent_packComponents

theorem unpackMantissa_bitsOf (s : Sign) (e : BitVec 11) (m : BitVec 52) :
    @unpackMantissa Format.binary64 (bitsOf s e m) = m := unpackMantissa_packComponents

theorem toNat_leading_append (m : BitVec 52) : (1#1 ++ m).toNat = 2 ^ (52 : Nat) + m.toNat := by
  rw [BitVec.toNat_append, ← Nat.shiftLeft_add_eq_or_of_lt m.isLt]
  rfl

theorem unpack_of_parts {b : BitVec 64} {s : Sign} {e : BitVec 11} {m : BitVec 52} {whole : Nat}
    (sign : Sign.ofBitVec (@unpackSign Format.binary64 b) = s)
    (exponent : @unpackExponent Format.binary64 b = e)
    (mantissa : @unpackMantissa Format.binary64 b = m) (leading : (1#1 ++ m).toNat = whole)
    (pos : 0 < whole) :
    UnpackedFloat.unpack Format.binary64 b =
      if e = -1#_ then if m = 0#_ then .infinity s else .notANumber
      else if e = 0#_ then
        if h : m = 0#_ then .zero s
        else .finite s m.toNat (e.toNat - 1075 + 1)
          (by simpa [BitVec.toNat_pos, BitVec.pos_iff_ne_zero])
      else .finite s whole (e.toNat - 1075) pos := by
  subst sign exponent mantissa leading
  rfl

theorem unpack_bitsOf (s : Sign) (e : BitVec 11) (m : BitVec 52) :
    UnpackedFloat.unpack Format.binary64 (bitsOf s e m) =
      if e = -1#_ then if m = 0#_ then .infinity s else .notANumber
      else if e = 0#_ then
        if h : m = 0#_ then .zero s
        else .finite s m.toNat (-1074) (by simpa [BitVec.toNat_pos, BitVec.pos_iff_ne_zero])
      else .finite s (2 ^ (52 : Nat) + m.toNat) (e.toNat - 1075) (by omega) := by
  have sign : Sign.ofBitVec (@unpackSign Format.binary64 (bitsOf s e m)) = s := by
    rw [unpackSign_bitsOf, ofBitVec_toBitVec]
  rw [unpack_of_parts sign (unpackExponent_bitsOf s e m) (unpackMantissa_bitsOf s e m)
    (toNat_leading_append m) (by omega)]
  by_cases zero : e = 0#11
  · subst zero
    rfl
  · rw [if_neg zero, if_neg zero]

theorem pack_finite (s : Sign) (e : Int) {m : Nat} (pos : 0 < m) :
    UnpackedFloat.pack Format.binary64 (.finite s m e pos) =
      if 2 ^ (11 : Nat) ≤ (e + 1023 + 52).toNat + 1 then packedInfinity Format.binary64 s
      else if m.log2 + 1 = 53 then
        bitsOf s (BitVec.ofNat 11 (e + 1023 + 52).toNat) (BitVec.ofNat 52 m)
      else bitsOf s 0#11 (BitVec.ofNat 52 m) := rfl

theorem pack_subnormal (s : Sign) {m : Nat} (pos : 0 < m) (small : m < 2 ^ (52 : Nat)) :
    UnpackedFloat.pack Format.binary64 (.finite s m (-1074) pos) =
      bitsOf s 0#11 (BitVec.ofNat 52 m) := by
  have short : ¬ m.log2 + 1 = 53 := by
    have := (Nat.log2_lt (Nat.ne_of_gt pos)).mpr small
    omega
  rw [pack_finite, if_neg short]
  rfl

theorem pack_normal (s : Sign) {e m : Nat} (finite : e < 2047) (small : m < 2 ^ (52 : Nat)) :
    UnpackedFloat.pack Format.binary64 (.finite s (2 ^ (52 : Nat) + m) (e - 1075) (by omega)) =
      bitsOf s (BitVec.ofNat 11 e) (BitVec.ofNat 52 m) := by
  have nonzero : 2 ^ (52 : Nat) + m ≠ 0 := by omega
  have lower := (Nat.le_log2 nonzero (k := 52)).mpr (by omega)
  have upper := (Nat.log2_lt nonzero (k := 53)).mpr (by omega)
  have full : (2 ^ (52 : Nat) + m).log2 + 1 = 53 := by omega
  have bias : ((e : Int) - 1075 + 1023 + 52).toNat = e := by omega
  have fits : ¬ 2 ^ (11 : Nat) ≤ e + 1 := by omega
  have stored : BitVec.ofNat 52 (2 ^ (52 : Nat) + m) = BitVec.ofNat 52 m := by
    apply BitVec.eq_of_toNat_eq
    simp only [BitVec.toNat_ofNat]
    omega
  rw [pack_finite, bias, if_neg fits, if_pos full, stored]

theorem pack_unpack {s : Sign} {e : BitVec 11} {m : BitVec 52} (finite : e ≠ -1#11) :
    UnpackedFloat.pack Format.binary64 (UnpackedFloat.unpack Format.binary64 (bitsOf s e m)) =
      bitsOf s e m := by
  rw [unpack_bitsOf, if_neg finite]
  by_cases zero : e = 0#11
  · rw [if_pos zero]
    subst zero
    by_cases none : m = 0#52
    · rw [dif_pos none]
      subst none
      rfl
    · rw [dif_neg none, pack_subnormal _ _ m.isLt, BitVec.ofNat_toNat, BitVec.setWidth_eq]
  · have small : e.toNat < 2047 := by
      have := e.isLt
      have : e.toNat ≠ 2047 := fun same => finite (BitVec.eq_of_toNat_eq same)
      omega
    rw [if_neg zero, pack_normal _ small m.isLt]
    simp only [BitVec.ofNat_toNat, BitVec.setWidth_eq]

theorem neg_unpack (s : Sign) (e : BitVec 11) (m : BitVec 52) :
    (UnpackedFloat.unpack Format.binary64 (bitsOf s e m)).neg =
      UnpackedFloat.unpack Format.binary64 (bitsOf (-s) e m) := by
  rw [unpack_bitsOf, unpack_bitsOf]
  by_cases top : e = -1#11
  · rw [if_pos top, if_pos top]
    split <;> rfl
  rw [if_neg top, if_neg top]
  by_cases zero : e = 0#11
  · rw [if_pos zero, if_pos zero]
    by_cases none : m = 0#52
    · rw [dif_pos none, dif_pos none]
      rfl
    · rw [dif_neg none, dif_neg none]
      rfl
  · rw [if_neg zero, if_neg zero]
    rfl

theorem eq_of_toBits {x y : Float} (same : x.toBits.toNat = y.toBits.toNat) : x = y := by
  obtain ⟨bits, valid⟩ := x
  obtain ⟨bits', valid'⟩ := y
  obtain rfl : bits = bits' := UInt64.toNat_inj.mp same
  rfl

theorem toNat_lt_infinity_iff (s : Sign) (e : BitVec 11) (m : BitVec 52) :
    (bitsOf s e m).toNat % 2 ^ (63 : Nat) < infinity ↔ e ≠ -1#11 := by
  have high := e.isLt
  have low := m.isLt
  have top : e ≠ -1#11 ↔ e.toNat ≠ 2047 := not_congr BitVec.toNat_inj.symm
  rw [top, toNat_bitsOf, infinity]
  omega

theorem toBits_ofBits {bits : Nat} (finite : bits < infinity) :
    (Float.ofBits (UInt64.ofNat bits)).toBits.toNat = bits := by
  have size : (UInt64.ofNat bits).toNat = bits := by
    rw [UInt64.toNat_ofNat']
    exact Nat.mod_eq_of_lt (Nat.lt_trans finite (by decide))
  obtain ⟨s, e, m, same⟩ := exists_bitsOf (UInt64.ofNat bits).toBitVec
  have whole : (bitsOf s e m).toNat = bits := by rw [← same]; exact size
  have below : e ≠ -1#11 := by
    rw [← toNat_lt_infinity_iff s e m, whole]
    exact Nat.lt_of_le_of_lt (Nat.mod_le _ _) finite
  have stored : (Float.ofBits (UInt64.ofNat bits)).toBits.toBitVec = bitsOf s e m := by
    show UnpackedFloat.pack Format.binary64
      (UnpackedFloat.unpack Format.binary64 (UInt64.ofNat bits).toBitVec) = _
    rw [same, pack_unpack below]
  exact (congrArg BitVec.toNat stored).trans whole

theorem toBits_neg {x : Float} (finite : x.toBits.toNat < infinity) :
    (-x).toBits.toNat = 2 ^ (63 : Nat) + x.toBits.toNat := by
  obtain ⟨s, e, m, bits⟩ := exists_bitsOf x.toBits.toBitVec
  have size : x.toBits.toNat = (bitsOf s e m).toNat := congrArg BitVec.toNat bits
  have below : e ≠ -1#11 := by
    rw [← toNat_lt_infinity_iff s e m, ← size]
    exact Nat.lt_of_le_of_lt (Nat.mod_le _ _) finite
  have plus : s = .positive := by
    cases s with
    | positive => rfl
    | negative =>
      rw [size, toNat_bitsOf, infinity, show Sign.negative.toBitVec.toNat = 1 from rfl] at finite
      omega
  subst plus
  have flipped : (-x).toBits.toBitVec = bitsOf .negative e m := by
    show UnpackedFloat.pack Format.binary64
      (UnpackedFloat.unpack Format.binary64 x.toBits.toBitVec).neg = _
    rw [bits, neg_unpack]
    exact pack_unpack below
  have size' : (-x).toBits.toNat = (bitsOf .negative e m).toNat := congrArg BitVec.toNat flipped
  rw [size, size', toNat_bitsOf, toNat_bitsOf, show Sign.negative.toBitVec.toNat = 1 from rfl,
    show Sign.positive.toBitVec.toNat = 0 from rfl]
  omega

/-- A finite number is that of its magnitude, or the negative of that. -/
theorem eq_magnitude_or_neg {x : Float} (finite : x.toBits.toNat % 2 ^ (63 : Nat) < infinity) :
    let magnitude := Float.ofBits (UInt64.ofNat (x.toBits.toNat % 2 ^ (63 : Nat)))
    if 2 ^ (63 : Nat) ≤ x.toBits.toNat then x = -magnitude else x = magnitude := by
  intro magnitude
  have size : magnitude.toBits.toNat = x.toBits.toNat % 2 ^ (63 : Nat) := toBits_ofBits finite
  have short : x.toBits.toNat < 2 ^ (64 : Nat) := x.toBits.toNat_lt
  split
  case isTrue negative =>
    have flipped := toBits_neg (size ▸ finite)
    apply eq_of_toBits
    omega
  case isFalse positive =>
    apply eq_of_toBits
    omega

/-- Below the bits of infinity, the sign apart, are the numbers that are finite. -/
theorem isFinite_iff (x : Float) :
    x.isFinite ↔ x.toBits.toNat % 2 ^ (63 : Nat) < infinity := by
  obtain ⟨s, e, m, bits⟩ := exists_bitsOf x.toBits.toBitVec
  have size : x.toBits.toNat = (bitsOf s e m).toNat := congrArg BitVec.toNat bits
  have unpacked : x.isFinite = (UnpackedFloat.unpack Format.binary64 (bitsOf s e m)).isFinite := by
    rw [← bits]
    rfl
  rw [unpacked, size, toNat_lt_infinity_iff, unpack_bitsOf]
  by_cases top : e = -1#11
  · rw [if_pos top]
    split <;> exact iff_of_false Bool.false_ne_true (not_not.mpr top)
  rw [if_neg top]
  by_cases zero : e = 0#11
  · rw [if_pos zero]
    by_cases none : m = 0#52
    · rw [dif_pos none]
      exact iff_of_true rfl top
    · rw [dif_neg none]
      exact iff_of_true rfl top
  · rw [if_neg zero]
    exact iff_of_true rfl top

end Scriptlet.Binary64
