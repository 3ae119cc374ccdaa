import Abacus.Proofs.Decimal.Bits

/-!
# The sign of a double

A finite double and its absolute value differ in one bit.  So they have the same significand and
the same exponent, and a double without a minus sign is its own absolute value.

## Main results

* `Binary64.toNat_toBits_abs`: the bits of an absolute value
* `Binary64.exists_ofFloat_eq`: its parts
* `Binary64.abs_eq_self`: doubles without a minus sign
-/

namespace Abacus.Binary64

open Float.Model Float.Model.UnpackedFloat

/-- **The absolute value of a finite double** has its fields but for the sign. -/
theorem pack_abs_unpack {b : BitVec Format.binary64.numBits}
    (h : (unpack .binary64 b).isFinite = true) :
    pack .binary64 (unpack .binary64 b).abs =
      packComponents .binary64 .positive (unpackExponent b) (unpackMantissa b) := by
  have hexponent := unpackExponent_lt_of_isFinite h
  have hmantissa : (unpackMantissa b).toNat < 2 ^ 52 := (unpackMantissa b).isLt
  by_cases hzero : (unpackExponent b).toNat = 0
  · have hnone : unpackExponent b = 0#_ := BitVec.eq_of_toNat_eq hzero
    rw [unpack_of_exponent_zero hzero, hnone]
    by_cases hsmall : (unpackMantissa b).toNat = 0
    · have hzero' : unpackMantissa b = 0#_ := BitVec.eq_of_toNat_eq hsmall
      rw [dif_pos hsmall, hzero']
      rfl
    · rw [dif_neg hsmall]
      delta UnpackedFloat.abs
      dsimp only
      rw [pack_of_lt _ _ hmantissa, BitVec.ofNat_toNat, BitVec.setWidth_eq]
      rfl
  · rw [unpack_of_exponent_pos (Nat.pos_of_ne_zero hzero) hexponent]
    delta UnpackedFloat.abs
    dsimp only
    rw [pack_of_leadingBit _ _ (by omega) (by omega) (by omega) (by omega)]
    congr 1
    · apply BitVec.eq_of_toNat_eq
      rw [BitVec.toNat_ofNat]
      omega
    · apply BitVec.eq_of_toNat_eq
      rw [BitVec.toNat_ofNat]
      omega

variable {x : Float}

theorem bitsOf_abs (h : x.isFinite = true) :
    bitsOf x.abs =
      packComponents .binary64 .positive (unpackExponent (bitsOf x)) (unpackMantissa (bitsOf x)) :=
  pack_abs_unpack (b := bitsOf x) h

/-- **The bits of an absolute value** are those of the double but for the first. -/
theorem toNat_toBits_abs (h : x.isFinite = true) :
    x.abs.toBits.toNat = x.toBits.toNat % 2 ^ 63 := by
  have hbits : x.abs.toBits.toNat = (bitsOf x.abs).toNat := rfl
  have hbits' : (bitsOf x).toNat = x.toBits.toNat := rfl
  rw [hbits, bitsOf_abs h, toNat_packComponents, toNat_unpackExponent, toNat_unpackMantissa, hbits']
  change 0 * 2 ^ 63 + x.toBits.toNat / 2 ^ 52 % 2 ^ 11 * 2 ^ 52 + x.toBits.toNat % 2 ^ 52 = _
  omega

/-- **A finite double has parts**, and its absolute value has the same, but for the sign. -/
theorem exists_ofFloat_eq (h : x.isFinite = true) :
    ∃ m q, ofFloat x = .finite (signBit ≤ x.toBits.toNat) m q ∧
      ofFloat x.abs = .finite false m q := by
  have hlt := unpackExponent_lt_of_isFinite (b := bitsOf x) h
  have hexponent : unpackExponent (bitsOf x.abs) = unpackExponent (bitsOf x) := by
    rw [bitsOf_abs h]
    exact unpackExponent_packComponents
  have hmantissa : unpackMantissa (bitsOf x.abs) = unpackMantissa (bitsOf x) := by
    rw [bitsOf_abs h]
    exact unpackMantissa_packComponents
  have hsign : decide (signBit ≤ x.abs.toBits.toNat) = false := by
    apply decide_eq_false
    rw [toNat_toBits_abs h]
    unfold signBit
    omega
  by_cases hzero : (unpackExponent (bitsOf x)).toNat = 0
  · refine ⟨_, _, ofFloat_of_exponent_zero hzero, ?_⟩
    rw [ofFloat_of_exponent_zero (hexponent ▸ hzero), hmantissa, hsign]
  · have hpos := Nat.pos_of_ne_zero hzero
    refine ⟨_, _, ofFloat_of_exponent_pos hpos hlt, ?_⟩
    rw [ofFloat_of_exponent_pos (hexponent ▸ hpos) (hexponent ▸ hlt), hexponent, hmantissa, hsign]

/-- A double without a minus sign is its own absolute value. -/
theorem abs_eq_self (h : x.isFinite = true) (hsign : (ofFloat x).isNegative = false) :
    x.abs = x := by
  obtain ⟨m, q, hparts, -⟩ := exists_ofFloat_eq h
  rw [hparts] at hsign
  have hbits : x.toBits.toNat < 2 ^ 63 := by
    have hlow : ¬ signBit ≤ x.toBits.toNat := of_decide_eq_false hsign
    unfold signBit at hlow
    omega
  have habs : x.abs.toBits.toNat = x.toBits.toNat := by
    rw [toNat_toBits_abs h, Nat.mod_eq_of_lt hbits]
  have hsame : x.abs.toModel.toBits = x.toModel.toBits := UInt64.toNat_inj.mp habs
  have hmodel : x.abs.toModel = x.toModel := by
    rcases hx : x.abs.toModel with ⟨bits, hvalid⟩
    rcases hx' : x.toModel with ⟨bits', hvalid'⟩
    rw [hx, hx'] at hsame
    cases hsame
    rfl
  exact congrArg Float.ofModel hmodel

end Abacus.Binary64
