import Abacus.Decimal.Numeral
import Abacus.Proofs.Decimal.Rounding
import Abacus.Proofs.Decimal.Sign

/-!
# Decimal numbers are rounded to the nearest double

A decimal number is a quotient by a power of ten, and quotients are rounded once.  A short one is
computed from two doubles that are exact.  Either way the result is the double that the number
rounds to.

## Main definitions

* `ofParts`: a positive double from its parts

## Main results

* `div_eq`, `mul_eq`: quotients and products
* `Decimal.nearest_eq`: decimal numbers
-/

namespace Abacus

namespace Binary64

open Float.Model Float.Model.UnpackedFloat

variable {m : Nat} {q : Int}

/-- **The positive double with the given parts.** -/
def ofParts (hparts : IsParts m q) : Float :=
  Float.ofModel (Float.Model.pack (.finite .positive m q hparts.pos))

section

variable {m₁ m₂ : Nat} {e₁ e₂ : Int}

/-- **A product** that has at least 53 bits. -/
theorem mul_eq (hparts : IsParts m q) (h₁ : 0 < m₁) (h₂ : 0 < m₂) (hfull : leadingBit ≤ m₁ * m₂)
    (hv : RoundsTo m q (m₁ * 2 ^ e₁ * (m₂ * 2 ^ e₂))) :
    UnpackedFloat.mul .binary64 (.finite .positive m₁ e₁ h₁) (.finite .positive m₂ e₂ h₂) =
      .finite .positive m q hparts.pos := by
  apply roundWithAccuracy_eq hparts hv _ (.inl hfull)
  have hvalue : (m₁ * 2 ^ e₁ * (m₂ * 2 ^ e₂) : ℚ) / 2 ^ (e₁ + e₂) = (m₁ * m₂ : Nat) := by
    rw [zpow_add₀ (by norm_num)]
    push_cast
    field_simp
  rw [hvalue]
  exact extends_exact (m₁ * m₂)

/-- A quotient has 53 bits if what is divided has so many more than the divisor. -/
theorem leadingBit_le_div {s : Nat} (h₁ : 0 < m₁) (h₂ : 0 < m₂)
    (h : m₂.log2 + 53 ≤ m₁.log2 + s) : leadingBit ≤ (m₁ <<< s) / m₂ := by
  rw [Nat.le_div_iff_mul_le h₂, Nat.shiftLeft_eq]
  calc leadingBit * m₂ ≤ 2 ^ 52 * 2 ^ (m₂.log2 + 1) :=
      Nat.mul_le_mul_left _ Nat.lt_log2_self.le
    _ = 2 ^ (m₂.log2 + 53) := by rw [← Nat.pow_add]; congr 1; omega
    _ ≤ 2 ^ (m₁.log2 + s) := Nat.pow_le_pow_right (by decide) h
    _ = 2 ^ m₁.log2 * 2 ^ s := Nat.pow_add 2 _ s
    _ ≤ m₁ * 2 ^ s := Nat.mul_le_mul_right _ (Nat.log2_self_le h₁.ne')

/-- **A quotient.** -/
theorem div_eq (hparts : IsParts m q) (h₁ : 0 < m₁) (h₂ : 0 < m₂)
    (hv : RoundsTo m q (m₁ * 2 ^ e₁ / (m₂ * 2 ^ e₂))) :
    UnpackedFloat.div .binary64 (.finite .positive m₁ e₁ h₁) (.finite .positive m₂ e₂ h₂) =
      .finite .positive m q hparts.pos := by
  -- the exponent of the quotient before it is rounded
  obtain ⟨t, hdiv, hle, hlow⟩ : ∃ t : Int,
      UnpackedFloat.div .binary64 (.finite .positive m₁ e₁ h₁) (.finite .positive m₂ e₂ h₂) =
        roundWithAccuracy .binary64 .positive ((m₁ <<< (e₁ - e₂ - t).toNat) / m₂) t
          (accuracyOfFraction ((m₁ <<< (e₁ - e₂ - t).toNat) % m₂) m₂) ∧
      t ≤ e₁ - e₂ ∧ (t ≤ minExponent ∨ t + m₂.log2 + e₂ + 53 ≤ m₁.log2 + e₁) := by
    refine ⟨_, rfl, min_le_left _ _, ?_⟩
    have htarget : Format.binary64.targetExponent (totalExponent m₁ e₁ - totalExponent m₂ e₂) =
        max (m₁.log2 + 1 + e₁ - (m₂.log2 + 1 + e₂) - 53) minExponent := rfl
    rw [htarget]
    omega
  rw [hdiv]
  apply roundWithAccuracy_eq hparts hv
  · have hpos : (m₂ : ℚ) ≠ 0 := by exact_mod_cast h₂.ne'
    have hvalue : (m₁ * 2 ^ e₁ / (m₂ * 2 ^ e₂) : ℚ) / 2 ^ t =
        (m₁ <<< (e₁ - e₂ - t).toNat : Nat) / m₂ := by
      have hpower : (2 : ℚ) ^ (e₁ - e₂ - t).toNat = 2 ^ e₁ / (2 ^ e₂ * 2 ^ t) := by
        rw [← zpow_natCast, Int.toNat_of_nonneg (by omega), zpow_sub₀ (by norm_num),
          zpow_sub₀ (by norm_num), div_div]
      rw [Nat.shiftLeft_eq]
      push_cast
      rw [hpower]
      field_simp
    rw [hvalue]
    exact extends_div _ h₂
  · rcases hlow with hlow | hlow
    · exact .inr hlow
    · left
      apply leadingBit_le_div h₁ h₂
      omega

end

/-! ### Exact operands -/

/-- **The double stands for the number**, with a leading bit. -/
def Exactly (x : Float) (n : Nat) : Prop :=
  ∃ (m : Nat) (q : Int) (hm : 0 < m),
    leadingBit ≤ m ∧ (m * 2 ^ q : ℚ) = n ∧ x.toModel.unpack = .finite .positive m q hm

section

variable {n k : Nat} (hn : 0 < n) (hk : n.log2 + k = 52)

include hn hk

/-- A whole number of 53 bits at most, moved to the left until it has its leading bit. -/
theorem isParts_mul_two_pow : IsParts (n * 2 ^ k) (-(k : Int)) ∧ leadingBit ≤ n * 2 ^ k := by
  have hlow : leadingBit ≤ n * 2 ^ k := by
    calc leadingBit = 2 ^ n.log2 * 2 ^ k := by rw [← Nat.pow_add, hk]; rfl
      _ ≤ n * 2 ^ k := Nat.mul_le_mul_right _ (Nat.log2_self_le hn.ne')
  have hhigh : n * 2 ^ k < 2 * leadingBit := by
    have hexponent : n.log2 + 1 + k = 53 := by omega
    calc n * 2 ^ k < 2 ^ (n.log2 + 1) * 2 ^ k :=
        Nat.mul_lt_mul_of_pos_right Nat.lt_log2_self (Nat.two_pow_pos k)
      _ = 2 * leadingBit := by rw [← Nat.pow_add, hexponent]; rfl
  have hmin : minExponent ≤ -(k : Int) := by
    unfold minExponent
    omega
  exact ⟨⟨Nat.mul_pos hn (Nat.two_pow_pos k), hhigh, hmin, .inl hlow⟩, hlow⟩

theorem toFloat_toModel : n.toUInt64.toFloat.toModel = Float.Model.pack
    (roundWithAccuracy .binary64 .positive (n * 2 ^ k) (-(k : Int)) .exact) := by
  have hlt : n < 2 ^ 53 := (Nat.log2_lt hn.ne').mp (by omega)
  have hnat : n.toUInt64.toNat = n := UInt64.toNat_ofNat_of_lt' (hlt.trans (by decide))
  have hcompare : compare (n : Int) 0 = .gt := compare_gt_iff_gt.mpr (by exact_mod_cast hn)
  have hscale : scaleOf n 0 = -(k : Int) := by
    unfold scaleOf minExponent
    omega
  have hshift : (0 - -(k : Int)).toNat = k := by omega
  change Float.Model.pack
    (UnpackedFloat.normalize .binary64 (n.toUInt64.toNat : Int) 0 .positive) = _
  rw [hnat, UnpackedFloat.normalize, hcompare]
  dsimp only
  rw [UnpackedFloat.round, targetExponent_eq, Int.toNat_natCast, hscale, decreaseExponent,
    hshift, Nat.shiftLeft_eq, zero_sub]

end

/-- A whole number of 53 bits at most is exact. -/
theorem exactly_toFloat {n : Nat} (hn : 0 < n) (h : n < 2 * leadingBit) :
    Exactly n.toUInt64.toFloat n := by
  have hlog : n.log2 < 53 := (Nat.log2_lt hn.ne').mpr h
  obtain ⟨k, hk⟩ : ∃ k, n.log2 + k = 52 := ⟨52 - n.log2, by omega⟩
  obtain ⟨hparts, hlow⟩ := isParts_mul_two_pow hn hk
  have hvalue : ((n * 2 ^ k : Nat) * 2 ^ (-(k : Int)) : ℚ) = n := by
    rw [zpow_neg, zpow_natCast]
    push_cast
    field_simp
  refine ⟨n * 2 ^ k, -(k : Int), hparts.pos, hlow, hvalue, ?_⟩
  rw [toFloat_toModel hn hk, roundWithAccuracy_eq hparts (roundsTo_self _ _) _ (.inl hlow)]
  · exact unpack_pack .positive hparts.pos hlow hparts.lt hparts.le (by omega)
  · rw [mul_div_cancel_right₀ _ (zpow_ne_zero _ (by norm_num))]
    exact extends_exact _

/-- A double stands for a power of ten, told without a fraction. -/
def isPowerOfTen (n : Nat) : UnpackedFloat → Bool
  | .finite .positive m q _ => leadingBit ≤ m && m * 2 ^ q.toNat == 10 ^ n * 2 ^ (-q).toNat
  | _ => false

theorem isPowerOfTen_table : ∀ n : Fin 23,
    isPowerOfTen n (Float.exactlyRepresentablePowersOfTen[n]).toModel.unpack = true := by
  decide +kernel

/-- The powers of ten of the table are exact. -/
theorem exactly_table (n : Nat) (h : n < Float.exactlyRepresentablePowersOfTen.size) :
    Exactly Float.exactlyRepresentablePowersOfTen[n] (10 ^ n) := by
  have hpower := isPowerOfTen_table ⟨n, h⟩
  change isPowerOfTen n (Float.exactlyRepresentablePowersOfTen[n]).toModel.unpack = true at hpower
  unfold isPowerOfTen at hpower
  split at hpower
  · next m q hm hunpack =>
    obtain ⟨hfull, hvalue⟩ := Bool.and_eq_true_iff.mp hpower
    refine ⟨m, q, hm, of_decide_eq_true hfull, ?_, hunpack⟩
    have hcast : (m * 2 ^ q.toNat : ℚ) = (10 ^ n : Nat) * 2 ^ (-q).toNat := by
      exact_mod_cast eq_of_beq hvalue
    have hnegative := Decimal.pow_toNat_neg_mul (b := 2) (by norm_num) q
    rw [← hnegative] at hcast
    have hpos : (0 : ℚ) < 2 ^ (-q).toNat := by positivity
    apply mul_right_cancel₀ hpos.ne'
    rw [← hcast]
    ring
  · cases hpower

section

variable {x y : Float} {a b : Nat}

theorem Exactly.mul (hparts : IsParts m q) (hx : Exactly x a) (hy : Exactly y b)
    (hv : RoundsTo m q (a * b)) : x * y = ofParts hparts := by
  obtain ⟨m₁, e₁, h₁, hfull₁, hvalue₁, hunpack₁⟩ := hx
  obtain ⟨m₂, e₂, h₂, -, hvalue₂, hunpack₂⟩ := hy
  rw [← hvalue₁, ← hvalue₂] at hv
  change Float.ofModel (Float.Model.pack
    (UnpackedFloat.mul .binary64 x.toModel.unpack y.toModel.unpack)) = _
  rw [hunpack₁, hunpack₂,
    mul_eq hparts h₁ h₂ (Nat.le_trans hfull₁ (Nat.le_mul_of_pos_right m₁ h₂)) hv]
  rfl

theorem Exactly.div (hparts : IsParts m q) (hx : Exactly x a) (hy : Exactly y b)
    (hv : RoundsTo m q (a / b)) : x / y = ofParts hparts := by
  obtain ⟨m₁, e₁, h₁, -, hvalue₁, hunpack₁⟩ := hx
  obtain ⟨m₂, e₂, h₂, -, hvalue₂, hunpack₂⟩ := hy
  rw [← hvalue₁, ← hvalue₂] at hv
  change Float.ofModel (Float.Model.pack
    (UnpackedFloat.div .binary64 x.toModel.unpack y.toModel.unpack)) = _
  rw [hunpack₁, hunpack₂, div_eq hparts h₁ h₂ hv]
  rfl

end

end Binary64

namespace Decimal

open Binary64 Float.Model

variable {m d places : Nat} {q : Int}

/-- What rounds to a positive double is not much smaller than the smallest one. -/
theorem lt_of_roundsTo (hparts : IsParts m q) (hd : 0 < d)
    (hv : RoundsTo m q (d * 10 ^ (-(places : Int)))) : 3 * places < d.log2 + 1076 := by
  have hpower : (0 : ℚ) < 2 ^ q := zpow_pos (by norm_num) q
  have hone : (1 : ℚ) ≤ m := by exact_mod_cast hparts.pos
  have hgap := gapBelow_le m q
  have hlow := (Near.le hv).1
  have hhalf : (1 / 2 : ℚ) ≤ d * 10 ^ (-(places : Int)) / 2 ^ q := by linarith
  rw [le_div_iff₀ hpower] at hhalf
  have hsmallest : (2 : ℚ) ^ minExponent ≤ 2 ^ q :=
    zpow_le_zpow_right₀ (by norm_num) hparts.le
  have hdigits : (d : ℚ) < 2 ^ (d.log2 + 1 : Int) := by exact_mod_cast Nat.lt_log2_self
  have hten : (10 : ℚ) ^ (-(places : Int)) ≤ 2 ^ (-(3 * places : Int)) := by
    have height : ((2 : ℚ) ^ 3) ^ places ≤ 10 ^ places :=
      pow_le_pow_left₀ (by norm_num) (by norm_num) places
    rw [zpow_neg, zpow_neg, zpow_natCast, zpow_mul, zpow_natCast]
    exact inv_anti₀ (by positivity) height
  have hless : (2 : ℚ) ^ (minExponent - 1) < 2 ^ (d.log2 + 1 - 3 * places : Int) := by
    calc (2 : ℚ) ^ (minExponent - 1) = 1 / 2 * 2 ^ minExponent := by
          rw [zpow_sub₀ (by norm_num), zpow_one]
          ring
      _ ≤ d * 10 ^ (-(places : Int)) := by linarith
      _ ≤ d * 2 ^ (-(3 * places : Int)) := mul_le_mul_of_nonneg_left hten (by positivity)
      _ < 2 ^ (d.log2 + 1 : Int) * 2 ^ (-(3 * places : Int)) :=
          mul_lt_mul_of_pos_right hdigits (by positivity)
      _ = 2 ^ (d.log2 + 1 - 3 * places : Int) := by
          rw [← zpow_add₀ (by norm_num)]
          rfl
  have hexponents := two_zpow_lt_iff.mp hless
  unfold minExponent at hexponents
  omega

/-- A number with some decimal places as a quotient that is rounded once. -/
theorem unpackedOfScientific_eq (hparts : IsParts m q) (hd : 0 < d)
    (hv : RoundsTo m q (d * 10 ^ (-(places : Int)))) :
    UnpackedFloat.ofScientific .binary64 d (-(places : Int)) =
      .finite .positive m q hparts.pos := by
  have hplaces := lt_of_roundsTo hparts hd hv
  have hlarge : ¬ -(places : Int) > 2 ^ Format.binary64.exponentBits := by
    change ¬ -(places : Int) > 2 ^ 11
    omega
  have hsmall : ¬ -(places : Int) < -(2 ^ Format.binary64.exponentBits + d.log2) := by
    change ¬ -(places : Int) < -(2 ^ 11 + d.log2)
    omega
  rw [UnpackedFloat.ofScientific, dif_neg hd.ne', if_neg hlarge, if_neg hsmall]
  by_cases hwhole : 0 ≤ -(places : Int)
  · rw [if_pos hwhole]
    obtain rfl : places = 0 := by omega
    have hpositive : 0 < d <<< 53 := by
      rw [Nat.shiftLeft_eq]
      exact Nat.mul_pos hd (Nat.two_pow_pos 53)
    have hfull : leadingBit ≤ d <<< 53 * 1 := by
      rw [Nat.shiftLeft_eq, Nat.mul_one]
      exact (Nat.le_mul_of_pos_left _ hd).trans' (by decide)
    have hvalue : ((d <<< 53 : Nat) * 2 ^ (-53 : Int) * ((1 : Nat) * 2 ^ (0 : Int)) : ℚ) = d := by
      rw [Nat.shiftLeft_eq, zpow_neg]
      push_cast
      field_simp
    have hwhole' : (d * 10 ^ (-((0 : Nat) : Int)) : ℚ) = d := by
      rw [Nat.cast_zero, neg_zero, zpow_zero, mul_one]
    rw [hwhole', ← hvalue] at hv
    exact mul_eq hparts hpositive Nat.one_pos hfull hv
  · rw [if_neg hwhole]
    apply div_eq hparts hd (Nat.pow_pos (by decide))
    rw [neg_neg, Int.toNat_natCast, zpow_zero, mul_one, mul_one, Nat.cast_pow]
    rwa [zpow_neg, zpow_natCast] at hv

/-- **A number with some decimal places** is the double it rounds to. -/
theorem ofScientific_eq (hparts : IsParts m q) (hd : 0 < d)
    (hv : RoundsTo m q (d * 10 ^ (-(places : Int)))) :
    Float.ofScientific d (decide (-(places : Int) < 0)) places = ofParts hparts := by
  unfold Float.ofScientific
  split
  · next hshort =>
    -- a quotient or a product of two exact doubles
    have hexact := exactly_toFloat hd hshort.1
    have hpower := exactly_table places (Nat.lt_succ_of_le hshort.2)
    dsimp only
    split
    · apply hexact.div hparts hpower
      rw [zpow_neg, zpow_natCast] at hv
      rw [Nat.cast_pow]
      exact hv
    · next hnone =>
      obtain rfl : places = 0 := by
        rw [decide_eq_true_eq] at hnone
        omega
      apply hexact.mul hparts hpower
      rw [Nat.cast_pow]
      exact hv
  · have hexponent : (if decide (-(places : Int) < 0) = true then Int.negOfNat places
        else Int.ofNat places) = -(places : Int) := by
      split
      · exact Int.negOfNat_eq
      · next hnone =>
        rw [decide_eq_true_eq] at hnone
        obtain rfl : places = 0 := by omega
        rfl
    change Float.ofModel (Float.Model.pack (UnpackedFloat.ofScientific .binary64 d _)) = _
    rw [hexponent, unpackedOfScientific_eq hparts hd hv]
    rfl

/-- **A decimal number is read as the double it rounds to.** -/
theorem nearest_eq (hparts : IsParts m q) (hd : 0 < d)
    (hv : RoundsTo m q (d * 10 ^ (-(places : Int)))) :
    nearest d (-(places : Int)) = ofParts hparts := by
  have hplaces := lt_of_roundsTo hparts hd hv
  rw [nearest, if_neg hd.ne', if_neg (by omega), if_neg (by omega), Int.natAbs_neg,
    Int.natAbs_natCast]
  exact ofScientific_eq hparts hd hv

end Decimal

end Abacus
