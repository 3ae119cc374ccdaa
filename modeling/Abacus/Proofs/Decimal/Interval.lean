import Abacus.Decimal.Shortest
import Mathlib.Algebra.Order.Field.Basic
import Mathlib.Algebra.Order.Field.Power
import Mathlib.Algebra.Order.Field.Rat
import Mathlib.Tactic.FieldSimp
import Mathlib.Tactic.Linarith
import Mathlib.Tactic.NormNum
import Mathlib.Tactic.Ring

/-!
# The numbers that round to a double

A double is the nearest one to all numbers between two halfway points, and to the halfway points
too if its significand is even.  The halfway point below a power of two is nearer than the one
above, since doubles are denser there.  The shortest digits of a double stand for a number of this
range.

## Main definitions

* `Binary64.IsParts`: the significand and the exponent of a positive double
* `Binary64.RoundsTo`: a number rounds to a double

## Main results

* `Decimal.holds_ofDouble`: the range that digits are searched in
* `Decimal.roundsTo_shortest`: the digits that are found
-/

namespace Abacus

namespace Binary64

/-- **The parts of a positive double.**  The significand has its leading bit, unless the exponent
is the smallest there is. -/
structure IsParts (m : Nat) (q : Int) : Prop where
  pos : 0 < m
  lt : m < 2 * leadingBit
  le : minExponent ≤ q
  full : leadingBit ≤ m ∨ q = minExponent

/-- The number lies around `r`, nearer than `below` or one half; or as near, if `r` is even. -/
def Near (r : Nat) (below x : ℚ) : Prop :=
  if r % 2 = 0 then r - below ≤ x ∧ x ≤ r + 1 / 2 else r - below < x ∧ x < r + 1 / 2

/-- From a double down to the halfway point, in units of its last place. -/
def gapBelow (m : Nat) (q : Int) : ℚ := if m = leadingBit ∧ minExponent < q then 1 / 4 else 1 / 2

/-- **The number rounds to the double** `m * 2 ^ q`. -/
def RoundsTo (m : Nat) (q : Int) (v : ℚ) : Prop := Near m (gapBelow m q) (v / 2 ^ q)

variable {m r : Nat} {q : Int} {below v x : ℚ}

theorem gapBelow_pos (m : Nat) (q : Int) : 0 < gapBelow m q := by
  unfold gapBelow
  split <;> norm_num

theorem gapBelow_le (m : Nat) (q : Int) : gapBelow m q ≤ 1 / 2 := by
  unfold gapBelow
  split <;> norm_num

theorem near_self (r : Nat) (h : 0 < below) : Near r below r := by
  unfold Near
  split
  · constructor <;> linarith
  · constructor <;> linarith

theorem Near.le (h : Near r below x) : r - below ≤ x ∧ x ≤ r + 1 / 2 := by
  unfold Near at h
  split at h
  · exact h
  · exact ⟨h.1.le, h.2.le⟩

theorem Near.mono {below' : ℚ} (h : Near r below x) (hle : below ≤ below') :
    Near r below' x := by
  unfold Near at h ⊢
  split
  · next heven =>
    rw [if_pos heven] at h
    exact ⟨by linarith, h.2⟩
  · next hodd =>
    rw [if_neg hodd] at h
    exact ⟨by linarith, h.2⟩

theorem roundsTo_self (m : Nat) (q : Int) : RoundsTo m q (m * 2 ^ q) := by
  have hpower : (2 : ℚ) ^ q ≠ 0 := zpow_ne_zero q (by norm_num)
  rw [RoundsTo, mul_div_cancel_right₀ _ hpower]
  exact near_self m (gapBelow_pos m q)

/-- Only positive numbers round to a positive double. -/
theorem RoundsTo.pos (h : RoundsTo m q v) (hm : 0 < m) : 0 < v := by
  have hlow := (Near.le h).1
  have hgap := gapBelow_le m q
  have hone : (1 : ℚ) ≤ m := by exact_mod_cast hm
  have hpos : 0 < v / 2 ^ q := by linarith
  have hpower : (0 : ℚ) < 2 ^ q := zpow_pos (by norm_num) q
  have hv := mul_pos hpos hpower
  rwa [div_mul_cancel₀ v hpower.ne'] at hv

/-- What has no leading bit on the scale of the double lies just below a power of two, unless the
exponent is the smallest. -/
theorem RoundsTo.eq_leadingBit (hv : RoundsTo m q v) (hparts : IsParts m q)
    (h : v / 2 ^ q < leadingBit) (hq : q ≠ minExponent) : m = leadingBit := by
  have hlow := (Near.le hv).1
  have hgap := gapBelow_le m q
  have hle := hparts.full.resolve_right hq
  have hlt : m < leadingBit + 1 := by exact_mod_cast (by linarith : (m : ℚ) < leadingBit + 1)
  omega

end Binary64

namespace Decimal

open Binary64

variable {m d : Nat} {q k : Int}

/-- A power with a negative exponent as a quotient of two without. -/
theorem pow_toNat_neg_mul {b : ℚ} (hb : b ≠ 0) (n : Int) :
    b ^ (-n).toNat * b ^ n = b ^ n.toNat := by
  rw [← zpow_natCast, ← zpow_natCast, ← zpow_add₀ hb]
  congr 1
  omega

namespace Range

/-- What a unit of the last place counts on the scale of a range. -/
def unit (q k : Int) : ℚ := 4 * (10 ^ (-k).toNat * 2 ^ (q - 2).toNat)

theorem unit_pos (q k : Int) : 0 < unit q k := by
  unfold unit
  positivity

theorem cast_shiftLeft (a b : Nat) : ((Nat.pow 10 a <<< b : Nat) : ℚ) = 10 ^ a * 2 ^ b := by
  rw [Nat.shiftLeft_eq, Nat.pow_eq]
  push_cast
  rfl

theorem cast_factor (q k : Int) :
    ((Nat.pow 10 (-k).toNat <<< (q - 2).toNat : Nat) : ℚ) = unit q k / 4 := by
  rw [cast_shiftLeft, unit]
  ring

theorem cast_value (m : Nat) (q k : Int) : ((ofDouble m q k).value : ℚ) = unit q k * m := by
  rw [ofDouble, Nat.cast_mul, cast_factor]
  push_cast
  ring

theorem cast_high (m : Nat) (q k : Int) :
    ((ofDouble m q k).high : ℚ) = unit q k * (m + 1 / 2) := by
  rw [ofDouble, Nat.cast_mul, cast_factor]
  push_cast
  ring

theorem cast_low (hm : 0 < m) (q k : Int) :
    ((ofDouble m q k).low : ℚ) = unit q k * (m - gapBelow m q) := by
  rw [ofDouble, Nat.cast_mul, cast_factor, gapBelow]
  split
  · rw [Nat.cast_sub (by omega)]
    push_cast
    ring
  · rw [Nat.cast_sub (by omega)]
    push_cast
    ring

/-- The points of the grid, on the scale of the range. -/
theorem cast_point (m d : Nat) (q k : Int) :
    ((d * (ofDouble m q k).denominator : Nat) : ℚ) = unit q k * (d * 10 ^ k / 2 ^ q) := by
  have hten := pow_toNat_neg_mul (b := 10) (by norm_num) k
  have htwo := pow_toNat_neg_mul (b := 2) (by norm_num) (q - 2)
  have hneg : -(q - 2) = 2 - q := by omega
  have hquarter : (2 : ℚ) ^ (q - 2) = 2 ^ q / 4 := by
    rw [zpow_sub₀ (by norm_num)]
    norm_num
  have hpower : (2 : ℚ) ^ q ≠ 0 := zpow_ne_zero q (by norm_num)
  rw [hneg, hquarter] at htwo
  have hdenominator : ((ofDouble m q k).denominator : ℚ) = 10 ^ k.toNat * 2 ^ (2 - q).toNat := by
    rw [ofDouble, cast_shiftLeft]
  rw [Nat.cast_mul, hdenominator, unit, ← hten, ← htwo]
  field_simp

/-- **The range of a double** holds the points that round to it. -/
theorem holds_ofDouble (hm : 0 < m) :
    (ofDouble m q k).holds d = true ↔ RoundsTo m q (d * 10 ^ k) := by
  have hunit := unit_pos q k
  have hclosed : (ofDouble m q k).closed = (m % 2 == 0) := rfl
  rw [RoundsTo, Near, holds, hclosed]
  by_cases heven : m % 2 = 0
  · simp only [heven, beq_self_eq_true, if_true, Bool.and_eq_true, decide_eq_true_eq]
    rw [← Nat.cast_le (α := ℚ), ← Nat.cast_le (α := ℚ), cast_point, cast_low hm, cast_high,
      mul_le_mul_iff_right₀ hunit, mul_le_mul_iff_right₀ hunit]
  · simp only [heven, beq_iff_eq, if_false, Bool.and_eq_true, decide_eq_true_eq]
    rw [← Nat.cast_lt (α := ℚ), ← Nat.cast_lt (α := ℚ), cast_point, cast_low hm, cast_high,
      mul_lt_mul_iff_right₀ hunit, mul_lt_mul_iff_right₀ hunit]

theorem holds_of_hit? {r : Range} (h : r.hit? = some d) : r.holds d = true := by
  unfold hit? at h
  dsimp only at h
  split at h
  · next hlow hhigh =>
    cases h
    split
    · exact hlow
    · exact hhigh
  · next hlow _ =>
    cases h
    exact hlow
  · next _ hhigh =>
    cases h
    exact hhigh
  · cases h

end Range

/-- The value lies on the finest grid: a power of two divides the same power of ten. -/
theorem denominator_dvd_value (m : Nat) (hk : k = -((-q).toNat : Int)) :
    (Range.ofDouble m q k).denominator ∣ (Range.ofDouble m q k).value := by
  have hwhole : k.toNat = 0 := by omega
  have hplaces : (-k).toNat = (-q).toNat := by omega
  rw [Range.ofDouble, hwhole, hplaces, Nat.shiftLeft_eq, Nat.shiftLeft_eq, Nat.pow_eq, Nat.pow_eq,
    Nat.pow_zero, Nat.one_mul]
  calc 2 ^ (2 - q).toNat ∣ 2 ^ (2 + (-q).toNat) := Nat.pow_dvd_pow 2 (by omega)
    _ = 4 * 2 ^ (-q).toNat := Nat.pow_add 2 2 _
    _ ∣ 4 * 10 ^ (-q).toNat := Nat.mul_dvd_mul_left 4 (pow_dvd_pow_of_dvd (by decide) _)
    _ ∣ 4 * m * (10 ^ (-q).toNat * 2 ^ (q - 2).toNat) :=
      Nat.mul_dvd_mul (Nat.dvd_mul_right 4 m) (Nat.dvd_mul_right _ _)

theorem value_div_denominator (m : Nat) (hk : k = -((-q).toNat : Int)) :
    (((Range.ofDouble m q k).value / (Range.ofDouble m q k).denominator : Nat) : ℚ) * 10 ^ k =
      m * 2 ^ q := by
  have hpoint := Range.cast_point m
    ((Range.ofDouble m q k).value / (Range.ofDouble m q k).denominator) q k
  rw [Nat.div_mul_cancel (denominator_dvd_value m hk), Range.cast_value] at hpoint
  have hsame := mul_left_cancel₀ (Range.unit_pos q k).ne' hpoint
  rw [eq_div_iff (zpow_ne_zero q (by norm_num))] at hsame
  exact hsame.symm

/-- **The digits that are searched for** round to the double, on whichever grid they are found. -/
theorem roundsTo_search (hm : 0 < m) (steps : Nat) (k : Int)
    (hk : k - steps = -((-q).toNat : Int)) :
    RoundsTo m q ((search m q steps k).1 * 10 ^ (search m q steps k).2) := by
  induction steps generalizing k with
  | zero =>
    rw [search]
    dsimp only
    rw [value_div_denominator m (by omega)]
    exact roundsTo_self m q
  | succ steps ih =>
    rw [search]
    split
    · next d hd => exact (Range.holds_ofDouble hm).mp (Range.holds_of_hit? hd)
    · exact ih (k - 1) (by omega)

/-- **The shortest digits of a double** stand for a number that rounds to it. -/
theorem roundsTo_shortest (hm : 0 < m) :
    RoundsTo m q ((shortest m q).1 * 10 ^ (shortest m q).2) := by
  rw [shortest]
  apply roundsTo_search hm
  omega

end Decimal

end Abacus
