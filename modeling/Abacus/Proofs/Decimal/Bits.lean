import Abacus.Decimal.Binary64
import Mathlib.Algebra.Group.Nat.Defs

/-!
# The fields of a double

The bits of a double are a sign, an exponent and the bits of a significand.  The exponent says
whether there is a leading bit besides.

## Main definitions

* `bitsOf`: the bits of a double

## Main results

* `toNat_packComponents`: fields put together
* `unpack_of_exponent_pos`, `unpack_of_exponent_zero`: what fields stand for
* `pack_of_leadingBit`, `pack_of_lt`: the fields of a double
* `unpack_pack`: a double is taken apart as it was put together
* `ofFloat_of_exponent_pos`, `ofFloat_of_exponent_zero`: the parts that fields stand for
-/

namespace Abacus.Binary64

open Float.Model Float.Model.UnpackedFloat

section

variable {b : BitVec Format.binary64.numBits}

theorem toNat_unpackMantissa : (unpackMantissa b).toNat = b.toNat % 2 ^ 52 := by
  simp [unpackMantissa]

theorem toNat_unpackExponent : (unpackExponent b).toNat = b.toNat / 2 ^ 52 % 2 ^ 11 := by
  simp [unpackExponent, Nat.shiftRight_eq_div_pow]

theorem toNat_packComponents (s : Sign) (e : BitVec 11) (m : BitVec 52) :
    (packComponents .binary64 s e m).toNat =
      s.toBitVec.toNat * 2 ^ 63 + e.toNat * 2 ^ 52 + m.toNat := by
  change (s.toBitVec ++ e ++ m).toNat = _
  rw [BitVec.toNat_append, BitVec.toNat_append, ← Nat.shiftLeft_add_eq_or_of_lt e.isLt,
    ← Nat.shiftLeft_add_eq_or_of_lt m.isLt, Nat.shiftLeft_eq, Nat.shiftLeft_eq]
  omega

theorem unpackSign_packComponents (s : Sign) (e : BitVec 11) (m : BitVec 52) :
    Sign.ofBitVec (unpackSign (packComponents .binary64 s e m)) = s := by
  have hsign : unpackSign (packComponents .binary64 s e m) = s.toBitVec := by
    apply BitVec.eq_of_toNat_eq
    change ((packComponents .binary64 s e m).toNat >>> 63) % 2 ^ 1 = _
    have he := e.isLt
    have hm := m.isLt
    have hs := s.toBitVec.isLt
    rw [toNat_packComponents, Nat.shiftRight_eq_div_pow]
    omega
  rw [hsign]
  cases s <;> rfl

/-- The significand of a double that is not among the smallest, with its leading bit. -/
theorem toNat_append_one (m : BitVec 52) : (1#1 ++ m).toNat = 2 ^ 52 + m.toNat := by
  rw [BitVec.toNat_append, ← Nat.shiftLeft_add_eq_or_of_lt m.isLt, Nat.shiftLeft_eq]
  rfl

theorem log2_eq {m : Nat} (hlow : 2 ^ 52 ≤ m) (hhigh : m < 2 ^ 53) : m.log2 = 52 := by
  have hne : m ≠ 0 := by omega
  have hle := (Nat.le_log2 hne).mpr hlow
  have hlt := (Nat.log2_lt hne).mpr hhigh
  omega

theorem unpackExponent_lt_of_isFinite (h : (unpack .binary64 b).isFinite = true) :
    (unpackExponent b).toNat < 2047 := by
  have hne : unpackExponent b ≠ -1#_ := by
    intro hexponent
    unfold UnpackedFloat.unpack at h
    rw [if_pos hexponent] at h
    split at h
    · cases h
    · cases h
  have hlt : (unpackExponent b).toNat < 2 ^ 11 := (unpackExponent b).isLt
  have hne' : (unpackExponent b).toNat ≠ 2047 := by
    intro hall
    exact hne (BitVec.eq_of_toNat_eq hall)
  omega

/-- **With an exponent** there is a leading bit. -/
theorem unpack_of_exponent_pos (hpos : 0 < (unpackExponent b).toNat)
    (hlt : (unpackExponent b).toNat < 2047) :
    unpack .binary64 b = .finite (Sign.ofBitVec (unpackSign b))
      (2 ^ 52 + (unpackMantissa b).toNat) ((unpackExponent b).toNat - 1075)
        (Nat.add_pos_left (Nat.two_pow_pos 52) _) := by
  have hsome : unpackExponent b ≠ 0#_ := by
    intro hzero
    rw [hzero] at hpos
    cases hpos
  have hnotAll : unpackExponent b ≠ -1#_ := by
    intro hall
    rw [hall] at hlt
    exact absurd hlt (by decide)
  unfold UnpackedFloat.unpack
  rw [if_neg hnotAll, if_neg hsome, UnpackedFloat.finite.injEq]
  exact ⟨rfl, toNat_append_one _, rfl⟩

/-- **Without an exponent** there is none, and the number may be zero. -/
theorem unpack_of_exponent_zero (hzero : (unpackExponent b).toNat = 0) :
    unpack .binary64 b =
      if h : (unpackMantissa b).toNat = 0 then .zero (Sign.ofBitVec (unpackSign b))
      else .finite (Sign.ofBitVec (unpackSign b)) (unpackMantissa b).toNat (-1074)
        (Nat.pos_of_ne_zero h) := by
  have hexponent : unpackExponent b = 0#_ := BitVec.eq_of_toNat_eq hzero
  unfold UnpackedFloat.unpack
  rw [hexponent, if_neg (by decide), if_pos rfl]
  by_cases hnone : unpackMantissa b = 0#_
  · rw [dif_pos hnone, dif_pos (by rw [hnone]; rfl)]
  · rw [dif_neg hnone, dif_neg]
    · rfl
    · intro hzero'
      exact hnone (BitVec.eq_of_toNat_eq hzero')

end

variable {m : Nat} {q : Int}

/-- **The fields of a double with a leading bit.**  The leading bit is not written. -/
theorem pack_of_leadingBit (s : Sign) (h : 0 < m) (hle : 2 ^ 52 ≤ m) (hlt : m < 2 ^ 53)
    (hlow : -1074 ≤ q) (hhigh : q ≤ 971) :
    pack .binary64 (.finite s m q h) =
      packComponents .binary64 s (BitVec.ofNat 11 (q + 1075).toNat) (BitVec.ofNat 52 m) := by
  have hbiased : (q + Format.binary64.exponentBias +
      Format.binary64.mantissaBitsWithoutImplicit).toNat = (q + 1075).toNat := by
    change (q + 1023 + 52).toNat = (q + 1075).toNat
    congr 1
    omega
  have hrange : ¬ 2 ^ Format.binary64.exponentBits ≤ (q + 1075).toNat + 1 := by
    change ¬ 2 ^ 11 ≤ (q + 1075).toNat + 1
    omega
  have hbits : m.log2 + 1 = Format.binary64.mantissaBits := by
    rw [log2_eq hle hlt]
    rfl
  delta UnpackedFloat.pack
  dsimp only
  rw [hbiased, if_neg hrange, if_pos hbits]

/-- One of the smallest doubles has no leading bit and no exponent. -/
theorem pack_of_lt (s : Sign) (h : 0 < m) (hlt : m < 2 ^ 52) :
    pack .binary64 (.finite s m (-1074) h) = packComponents .binary64 s 0 (BitVec.ofNat 52 m) := by
  have hbits : ¬ m.log2 + 1 = Format.binary64.mantissaBits := by
    change ¬ m.log2 + 1 = 53
    have hlog := (Nat.log2_lt (Nat.ne_of_gt h)).mpr hlt
    omega
  delta UnpackedFloat.pack
  dsimp only
  rw [if_neg (by decide), if_neg hbits]
  rfl

/-- A double with a leading bit is taken apart as it was put together. -/
theorem unpack_pack (s : Sign) (h : 0 < m) (hle : 2 ^ 52 ≤ m) (hlt : m < 2 ^ 53)
    (hlow : -1074 ≤ q) (hhigh : q ≤ 971) :
    unpack .binary64 (pack .binary64 (.finite s m q h)) = .finite s m q h := by
  rw [pack_of_leadingBit s h hle hlt hlow hhigh]
  have hexponent : (unpackExponent (packComponents .binary64 s
      (BitVec.ofNat 11 (q + 1075).toNat) (BitVec.ofNat 52 m))).toNat = (q + 1075).toNat := by
    rw [unpackExponent_packComponents, BitVec.toNat_ofNat]
    change (q + 1075).toNat % 2 ^ 11 = _
    omega
  have hmantissa : (unpackMantissa (packComponents .binary64 s
      (BitVec.ofNat 11 (q + 1075).toNat) (BitVec.ofNat 52 m))).toNat = m - 2 ^ 52 := by
    rw [unpackMantissa_packComponents, BitVec.toNat_ofNat]
    change m % 2 ^ 52 = _
    omega
  rw [unpack_of_exponent_pos (by omega) (by omega), UnpackedFloat.finite.injEq,
    unpackSign_packComponents, hexponent, hmantissa]
  refine ⟨rfl, ?_, ?_⟩
  · omega
  · omega

/-! ### The parts of a double -/

/-- The bits of a double. -/
def bitsOf (x : Float) : BitVec Format.binary64.numBits := x.toBits.toBitVec

section

variable {x : Float}

theorem exponent_eq (x : Float) :
    (x.toBits.toNat >>> 52) % 2048 = (unpackExponent (bitsOf x)).toNat := by
  rw [toNat_unpackExponent, Nat.shiftRight_eq_div_pow]
  rfl

theorem fraction_eq (x : Float) :
    x.toBits.toNat % leadingBit = (unpackMantissa (bitsOf x)).toNat :=
  toNat_unpackMantissa.symm

theorem ofFloat_of_exponent_pos (hpos : 0 < (unpackExponent (bitsOf x)).toNat)
    (hlt : (unpackExponent (bitsOf x)).toNat < 2047) :
    ofFloat x = .finite (signBit ≤ x.toBits.toNat)
      (leadingBit + (unpackMantissa (bitsOf x)).toNat) ((unpackExponent (bitsOf x)).toNat - 1075) := by
  have hexponent : minExponent + (((unpackExponent (bitsOf x)).toNat : Int) - 1) =
      (unpackExponent (bitsOf x)).toNat - 1075 := by
    unfold minExponent
    omega
  unfold ofFloat
  dsimp only
  rw [exponent_eq, fraction_eq, if_neg (by omega), if_neg (by omega), hexponent]

theorem ofFloat_of_exponent_zero (hzero : (unpackExponent (bitsOf x)).toNat = 0) :
    ofFloat x = .finite (signBit ≤ x.toBits.toNat) (unpackMantissa (bitsOf x)).toNat
      minExponent := by
  unfold ofFloat
  dsimp only
  rw [exponent_eq, fraction_eq, if_neg (by omega), if_pos hzero]

end

end Abacus.Binary64
