import Abacus.Proofs.Decimal.Interval

/-!
# Rounding

The float model holds a result as a mantissa with two more bits: whether there is a half beyond
the mantissa, and whether there is anything beyond that.  Rounding moves the mantissa to the scale
of the result, and the two bits say which way it goes.  So whatever number rounds to a double is
rounded to it.

## Main definitions

* `Extends`: a mantissa with its two bits stands for a number

## Main results

* `Extends.roundedMantissa_eq`: the nearest whole number
* `roundWithAccuracy_eq`: the nearest double
-/

namespace Abacus.Binary64

open Float.Model Float.Model.UnpackedFloat

/-! ### A mantissa and what is beyond it -/

/-- The mantissa and the half that its first bit tells. -/
def wholeAndHalf (em : ExtendedMantissa) : ℚ := em.mantissa + if em.roundBit then 1 / 2 else 0

/-- **The number is the mantissa and what its two bits tell**: perhaps a half, and perhaps
something less than a half. -/
def Extends (em : ExtendedMantissa) (x : ℚ) : Prop :=
  if em.stickyBit then wholeAndHalf em < x ∧ x < wholeAndHalf em + 1 / 2 else x = wholeAndHalf em

section

variable {em : ExtendedMantissa} {x : ℚ}

theorem extends_exact (m : Nat) : Extends (.ofMantissaAndAccuracy m .exact) m :=
  (add_zero (m : ℚ)).symm

/-- A whole number and a fraction, with what the fraction is compared to one half. -/
theorem extends_fraction (n : Nat) {r d : Nat} (hr : r < d) :
    Extends (.ofMantissaAndAccuracy n (accuracyOfFraction r d)) (n + r / d) := by
  have hpos : (0 : ℚ) < d := by exact_mod_cast (Nat.zero_le r).trans_lt hr
  have hless : (r / d : ℚ) < 1 := by
    rw [div_lt_one hpos]
    exact_mod_cast hr
  have hdouble : (2 * r : Nat) / d = (2 * (r / d) : ℚ) := by
    push_cast
    exact mul_div_assoc 2 (r : ℚ) d
  rw [accuracyOfFraction]
  split
  · next hnone =>
    rw [hnone, Nat.cast_zero, zero_div, add_zero]
    exact extends_exact n
  · next hsome =>
    have hmore : (0 : ℚ) < r / d := by
      apply div_pos _ hpos
      exact_mod_cast Nat.pos_of_ne_zero hsome
    cases hcompare : compare (2 * r) d with
    | lt =>
      have hlt : ((2 * r : Nat) / d : ℚ) < 1 := by
        rw [div_lt_one hpos]
        exact_mod_cast Nat.compare_eq_lt.mp hcompare
      simp only [Extends, wholeAndHalf, ExtendedMantissa.ofMantissaAndAccuracy, if_true,
        Bool.false_eq_true, if_false]
      constructor <;> linarith
    | eq =>
      have heq : ((2 * r : Nat) / d : ℚ) = 1 := by
        rw [div_eq_one_iff_eq hpos.ne']
        exact_mod_cast Nat.compare_eq_eq.mp hcompare
      simp only [Extends, wholeAndHalf, ExtendedMantissa.ofMantissaAndAccuracy, if_true,
        Bool.false_eq_true, if_false]
      linarith
    | gt =>
      have hgt : 1 < ((2 * r : Nat) / d : ℚ) := by
        rw [one_lt_div hpos]
        exact_mod_cast Nat.compare_eq_gt.mp hcompare
      simp only [Extends, wholeAndHalf, ExtendedMantissa.ofMantissaAndAccuracy, if_true]
      constructor <;> linarith

/-- A quotient, with what its remainder says about it. -/
theorem extends_div (n : Nat) {d : Nat} (hd : 0 < d) :
    Extends (.ofMantissaAndAccuracy (n / d) (accuracyOfFraction (n % d) d)) (n / d : ℚ) := by
  have hpos : (d : ℚ) ≠ 0 := by exact_mod_cast hd.ne'
  have hsplit : (n : ℚ) = d * (n / d : Nat) + (n % d : Nat) := by
    exact_mod_cast (Nat.div_add_mod n d).symm
  have hquotient : (n / d : ℚ) = (n / d : Nat) + (n % d : Nat) / d := by
    rw [div_eq_iff hpos, add_mul, div_mul_cancel₀ _ hpos, mul_comm, hsplit]
  rw [hquotient]
  exact extends_fraction (n / d) (Nat.mod_lt n hd)

theorem Extends.bounds (h : Extends em x) : em.mantissa ≤ x ∧ x < em.mantissa + 1 := by
  unfold Extends wholeAndHalf at h
  split at h <;> split at h <;> constructor <;> linarith

theorem Extends.shiftRightOne (h : Extends em x) : Extends em.shiftRightOne (x / 2) := by
  have hhalf : wholeAndHalf em.shiftRightOne = em.mantissa / 2 := by
    have hsplit : (em.mantissa : ℚ) = 2 * (em.mantissa / 2 : Nat) + (em.mantissa % 2 : Nat) := by
      exact_mod_cast (Nat.div_add_mod em.mantissa 2).symm
    rw [wholeAndHalf, ExtendedMantissa.shiftRightOne]
    dsimp only
    rcases Nat.mod_two_eq_zero_or_one em.mantissa with hm | hm
    · rw [hm, Nat.cast_zero] at hsplit
      rw [hm, if_neg (by decide)]
      linarith
    · rw [hm, Nat.cast_one] at hsplit
      rw [hm, if_pos (by decide)]
      linarith
  have hbits : em.shiftRightOne.stickyBit = (em.roundBit || em.stickyBit) := rfl
  unfold Extends
  rw [hhalf, hbits]
  unfold Extends wholeAndHalf at h
  cases hround : em.roundBit <;> cases hsticky : em.stickyBit
  all_goals
    simp only [hround, hsticky, if_true, Bool.false_eq_true, if_false, Bool.or_false,
      Bool.or_true] at h ⊢
  -- nothing is lost
  · linarith
  -- what is lost is something
  · constructor <;> linarith
  · constructor <;> linarith
  · constructor <;> linarith

theorem Extends.shiftRight (h : Extends em x) (n : Nat) : Extends (em >>> n) (x / 2 ^ n) := by
  change Extends (n.repeat ExtendedMantissa.shiftRightOne em) _
  induction n with
  | zero =>
    rw [pow_zero, div_one]
    exact h
  | succ n ih =>
    rw [pow_succ, ← div_div]
    exact ih.shiftRightOne

/-- **The nearest whole number**, the even one of two. -/
theorem Extends.roundedMantissa_eq {r : Nat} (h : Extends em x) (hr : Near r (1 / 2) x) :
    em.roundedMantissa = r := by
  obtain ⟨hlow, hhigh⟩ := hr.le
  have heq {n : Nat} (h : (r : ℚ) < n + 1) (h' : (n : ℚ) < r + 1) : n = r := by
    have hle : r < n + 1 := by exact_mod_cast h
    have hle' : n < r + 1 := by exact_mod_cast h'
    omega
  rcases em with ⟨m, _ | _, _ | _⟩
  all_goals
    simp only [Extends, wholeAndHalf, if_true, Bool.false_eq_true, if_false] at h
  · change m = r
    apply heq <;> linarith
  · change m = r
    apply heq <;> linarith
  -- as near to one as to the other
  · change m + m % 2 = r
    unfold Near at hr
    split at hr
    · next heven =>
      have hle : r ≤ m + 1 := by exact_mod_cast (by linarith : (r : ℚ) ≤ m + 1)
      have hle' : m ≤ r := by exact_mod_cast (by linarith : (m : ℚ) ≤ r)
      omega
    · have hlt : r < m + 1 := by exact_mod_cast (by linarith : (r : ℚ) < m + 1)
      have hlt' : m < r := by exact_mod_cast (by linarith : (m : ℚ) < r)
      omega
  · change m + 1 = r
    apply heq
    · push_cast
      linarith
    · push_cast
      linarith

end

/-! ### The scale of the result -/

/-- The exponent that a result is moved to: it has 53 bits then, or the smallest exponent. -/
def scaleOf (n : Nat) (e : Int) : Int := max (n.log2 + e - 52) minExponent

theorem targetExponent_eq (n : Nat) (e : Int) :
    Format.binary64.targetExponent (totalExponent n e) = scaleOf n e := by
  unfold Format.targetExponent totalExponent scaleOf
  change max ((n.log2 : Int) + 1 + e - 53) (-1074) = max _ (-1074)
  congr 1
  omega

section

variable {n : Nat} {e j : Int} {accuracy : Accuracy} {v : ℚ}

theorem minExponent_le_scaleOf (n : Nat) (e : Int) : minExponent ≤ scaleOf n e := le_max_right _ _

theorem le_log2 (h : leadingBit ≤ n) : 52 ≤ n.log2 := by
  apply (Nat.le_log2 _).mpr h
  rintro rfl
  cases h

theorem le_scaleOf (hfull : leadingBit ≤ n ∨ e ≤ minExponent) : e ≤ scaleOf n e := by
  rcases hfull with hfull | hsmall
  · have hlog := le_log2 hfull
    unfold scaleOf
    omega
  · exact hsmall.trans (minExponent_le_scaleOf n e)

theorem shiftToTargetExponent_eq (h : e ≤ scaleOf n e) :
    shiftToTargetExponent .binary64 n e accuracy =
      (ExtendedMantissa.ofMantissaAndAccuracy n accuracy >>> (scaleOf n e - e).toNat,
        scaleOf n e) := by
  unfold shiftToTargetExponent shiftToExponent
  dsimp only
  rw [targetExponent_eq]
  congr 1
  omega

/-- What a result stands for, once it has been moved. -/
theorem extends_shiftToTargetExponent (h : e ≤ scaleOf n e)
    (hext : Extends (.ofMantissaAndAccuracy n accuracy) (v / 2 ^ e)) :
    Extends (shiftToTargetExponent .binary64 n e accuracy).1 (v / 2 ^ scaleOf n e) := by
  have hshift := hext.shiftRight (scaleOf n e - e).toNat
  have hpower : (2 : ℚ) ^ e * 2 ^ (scaleOf n e - e).toNat = 2 ^ scaleOf n e := by
    rw [← zpow_natCast, ← zpow_add₀ (by norm_num)]
    congr 1
    omega
  rw [div_div, hpower] at hshift
  rw [shiftToTargetExponent_eq h]
  exact hshift

theorem mantissa_ofMantissaAndAccuracy (n : Nat) (accuracy : Accuracy) :
    (ExtendedMantissa.ofMantissaAndAccuracy n accuracy).mantissa = n := by
  cases accuracy with
  | exact => rfl
  | inexact o => cases o <;> rfl

/-- A mantissa other than zero tells between which powers of two the number lies. -/
theorem Extends.log2_bounds (hext : Extends (.ofMantissaAndAccuracy n accuracy) (v / 2 ^ e))
    (hn : n ≠ 0) : (2 : ℚ) ^ (n.log2 + e) ≤ v ∧ v < 2 ^ (n.log2 + e + 1) := by
  have hpower : (0 : ℚ) < 2 ^ e := zpow_pos (by norm_num) e
  obtain ⟨hlow, hhigh⟩ := hext.bounds
  rw [mantissa_ofMantissaAndAccuracy, le_div_iff₀ hpower] at hlow
  rw [mantissa_ofMantissaAndAccuracy, div_lt_iff₀ hpower] at hhigh
  have hle : (2 : ℚ) ^ n.log2 ≤ n := by exact_mod_cast Nat.log2_self_le hn
  have hlt : (n : ℚ) + 1 ≤ 2 ^ (n.log2 + 1) := by exact_mod_cast Nat.lt_log2_self
  have hsucc : (n.log2 + e + 1 : Int) = (n.log2 + 1 : Nat) + e := by omega
  constructor
  · rw [zpow_add₀ (by norm_num), zpow_natCast]
    exact (mul_le_mul_of_nonneg_right hle hpower.le).trans hlow
  · rw [hsucc, zpow_add₀ (by norm_num), zpow_natCast]
    exact hhigh.trans_le (mul_le_mul_of_nonneg_right hlt hpower.le)

/-- Without a mantissa the number is smaller than all that has one. -/
theorem Extends.lt_of_eq_zero (hext : Extends (.ofMantissaAndAccuracy 0 accuracy) (v / 2 ^ e)) :
    v < 2 ^ e := by
  have hpower : (0 : ℚ) < 2 ^ e := zpow_pos (by norm_num) e
  have hhigh := hext.bounds.2
  rw [mantissa_ofMantissaAndAccuracy, div_lt_iff₀ hpower, Nat.cast_zero, zero_add, one_mul]
    at hhigh
  exact hhigh

theorem two_zpow_lt_iff {i j : Int} : (2 : ℚ) ^ i < 2 ^ j ↔ i < j :=
  zpow_lt_zpow_iff_right₀ (by norm_num)

theorem scaleOf_le (hext : Extends (.ofMantissaAndAccuracy n accuracy) (v / 2 ^ e))
    (hfull : leadingBit ≤ n ∨ e ≤ minExponent) (hj : minExponent ≤ j) (h : v < 2 ^ (53 + j)) :
    scaleOf n e ≤ j := by
  apply max_le _ hj
  by_cases hn : n = 0
  · subst hn
    have hsmall : e ≤ minExponent := hfull.resolve_left (by decide)
    have hlog : Nat.log2 0 = 0 := rfl
    omega
  · have hlt := two_zpow_lt_iff.mp ((hext.log2_bounds hn).1.trans_lt h)
    omega

theorem le_scaleOf_of_le (hext : Extends (.ofMantissaAndAccuracy n accuracy) (v / 2 ^ e))
    (hfull : leadingBit ≤ n ∨ e ≤ minExponent) (h : 2 ^ (52 + j) ≤ v) : j ≤ scaleOf n e := by
  by_cases hn : n = 0
  · subst hn
    have hsmall : e ≤ minExponent := hfull.resolve_left (by decide)
    have hlt := two_zpow_lt_iff.mp (h.trans_lt hext.lt_of_eq_zero)
    have hmin := minExponent_le_scaleOf 0 e
    omega
  · have hlt := two_zpow_lt_iff.mp (h.trans_lt (hext.log2_bounds hn).2)
    have hmax : n.log2 + e - 52 ≤ scaleOf n e := le_max_left _ _
    omega

end

/-! ### The nearest double -/

section

variable {m n : Nat} {q e : Int} {accuracy : Accuracy} {v : ℚ}

/-- A mantissa that fits is moved nowhere. -/
theorem shiftToTargetExponent_of_lt (hm : m < 2 * leadingBit) (hq : minExponent ≤ q) :
    shiftToTargetExponent .binary64 m q .exact = (⟨m, false, false⟩, q) := by
  have hlog : m.log2 ≤ 52 := by
    by_cases hzero : m = 0
    · subst hzero
      decide
    · exact Nat.le_of_lt_succ ((Nat.log2_lt hzero).mpr hm)
  have hscale : scaleOf m q ≤ q := by
    apply max_le _ hq
    omega
  have hstay : (scaleOf m q - q).toNat = 0 := by omega
  unfold shiftToTargetExponent shiftToExponent
  dsimp only
  rw [targetExponent_eq, hstay, Int.natCast_zero, add_zero]
  rfl

/-- A mantissa with one bit too many is moved by it. -/
theorem shiftToTargetExponent_double (hq : minExponent < q) :
    shiftToTargetExponent .binary64 (2 * leadingBit) (q - 1) .exact =
      (⟨leadingBit, false, false⟩, q) := by
  have hlog : (2 * leadingBit).log2 = 53 := by decide
  have hscale : scaleOf (2 * leadingBit) (q - 1) = q := by
    unfold scaleOf
    omega
  have hone : (q - (q - 1)).toNat = 1 := by omega
  rw [shiftToTargetExponent_eq (by omega), hscale, hone]
  rfl

theorem cast_leadingBit : (leadingBit : ℚ) = 2 ^ (52 : Int) := by norm_num [leadingBit]

/-- What rounds to a double is moved to its exponent, if it has the leading bit there or the
exponent is the smallest. -/
theorem scaleOf_eq_of_roundsTo (hparts : IsParts m q) (hv : RoundsTo m q v)
    (hext : Extends (.ofMantissaAndAccuracy n accuracy) (v / 2 ^ e))
    (hfull : leadingBit ≤ n ∨ e ≤ minExponent)
    (h : (leadingBit : ℚ) ≤ v / 2 ^ q ∨ q = minExponent) : scaleOf n e = q := by
  have hpower : (0 : ℚ) < 2 ^ q := zpow_pos (by norm_num) q
  apply le_antisymm
  · apply scaleOf_le hext hfull hparts.le
    have hm : (m : ℚ) + 1 ≤ 2 * leadingBit := by exact_mod_cast hparts.lt
    have hhigh := (Near.le hv).2
    have hdouble : (2 : ℚ) ^ (53 : Int) = 2 * leadingBit := by norm_num [leadingBit]
    rw [zpow_add₀ (by norm_num), ← div_lt_iff₀ hpower, hdouble]
    linarith
  · rcases h with h | rfl
    · apply le_scaleOf_of_le hext hfull
      rw [zpow_add₀ (by norm_num), ← le_div_iff₀ hpower, ← cast_leadingBit]
      exact h
    · exact minExponent_le_scaleOf n e

/-- Just below a power of two it is moved to the exponent below. -/
theorem scaleOf_eq_pred_of_roundsTo (hq : minExponent < q) (hv : RoundsTo leadingBit q v)
    (hext : Extends (.ofMantissaAndAccuracy n accuracy) (v / 2 ^ e))
    (hfull : leadingBit ≤ n ∨ e ≤ minExponent) (h : v / 2 ^ q < leadingBit) :
    scaleOf n e = q - 1 ∧ Near (2 * leadingBit) (1 / 2) (v / 2 ^ (q - 1)) := by
  have hpower : (0 : ℚ) < 2 ^ q := zpow_pos (by norm_num) q
  have hlow := (Near.le hv).1
  rw [gapBelow, if_pos ⟨rfl, hq⟩] at hlow
  refine ⟨le_antisymm ?_ ?_, ?_⟩
  · apply scaleOf_le hext hfull (by omega)
    have hexponent : 53 + (q - 1) = 52 + q := by omega
    rw [hexponent, zpow_add₀ (by norm_num), ← div_lt_iff₀ hpower, ← cast_leadingBit]
    exact h
  · apply le_scaleOf_of_le hext hfull
    have hexponent : 52 + (q - 1) = 51 + q := by omega
    have hhalf : (2 : ℚ) ^ (51 : Int) = leadingBit / 2 := by norm_num [leadingBit]
    have hone : (1 : ℚ) ≤ leadingBit := by norm_num [leadingBit]
    rw [hexponent, zpow_add₀ (by norm_num), ← le_div_iff₀ hpower, hhalf]
    linarith
  · have hdouble : v / 2 ^ (q - 1) = 2 * (v / 2 ^ q) := by
      rw [zpow_sub₀ (by norm_num), zpow_one]
      field_simp
    rw [hdouble, Near, if_pos (by decide)]
    push_cast
    constructor <;> linarith

/-- **Whatever rounds to a double** is rounded to it. -/
theorem roundWithAccuracy_eq (hparts : IsParts m q) (hv : RoundsTo m q v)
    (hext : Extends (.ofMantissaAndAccuracy n accuracy) (v / 2 ^ e))
    (hfull : leadingBit ≤ n ∨ e ≤ minExponent) (s : Sign) :
    roundWithAccuracy .binary64 s n e accuracy = .finite s m q hparts.pos := by
  have hle := le_scaleOf hfull
  have hmoved := extends_shiftToTargetExponent hle hext
  have hexponent : (shiftToTargetExponent .binary64 n e accuracy).2 = scaleOf n e := by
    rw [shiftToTargetExponent_eq hle]
  unfold roundWithAccuracy
  dsimp only
  rw [hexponent]
  by_cases hsame : (leadingBit : ℚ) ≤ v / 2 ^ q ∨ q = minExponent
  · have hnear := Near.mono hv (gapBelow_le m q)
    rw [scaleOf_eq_of_roundsTo hparts hv hext hfull hsame] at hmoved ⊢
    rw [hmoved.roundedMantissa_eq hnear, shiftToTargetExponent_of_lt hparts.lt hparts.le]
    exact dif_neg hparts.pos.ne'
  -- The mantissa is rounded up to a power of two, which takes a bit more than there are.
  · obtain ⟨hless, hq⟩ := not_or.mp hsame
    obtain rfl := hv.eq_leadingBit hparts (not_le.mp hless) hq
    have hq : minExponent < q := lt_of_le_of_ne hparts.le (Ne.symm hq)
    obtain ⟨hscale, hnear⟩ := scaleOf_eq_pred_of_roundsTo hq hv hext hfull (not_le.mp hless)
    rw [hscale] at hmoved ⊢
    rw [hmoved.roundedMantissa_eq hnear, shiftToTargetExponent_double hq]
    exact dif_neg hparts.pos.ne'

end

end Abacus.Binary64
