import Abacus.Proofs.Decimal.Nearest
import Abacus.Proofs.Decimal.Plain

/-!
# Plain numbers are read back

The text of a positive double denotes a number that rounds to it, and what is read is the double
that a number rounds to.

## Main results

* `exists_denotes_positive`: the number that a text denotes
* `read?_plain_abs`: an absolute value is read back
-/

namespace Abacus

namespace Binary64

open Float.Model Float.Model.UnpackedFloat

variable {x : Float} {negative : Bool} {m : Nat} {q : Int}

/-- **The parts of a double** are those that the float model takes it apart into. -/
theorem unpack_of_ofFloat (hfinite : x.isFinite = true) (h : ofFloat x = .finite negative m q) :
    (∃ s, m = 0 ∧ x.toModel.unpack = .zero s) ∨
      ∃ (s : Sign) (hparts : IsParts m q), x.toModel.unpack = .finite s m q hparts.pos := by
  have hlt := unpackExponent_lt_of_isFinite (b := bitsOf x) hfinite
  have hmantissa : (unpackMantissa (bitsOf x)).toNat < leadingBit :=
    (unpackMantissa (bitsOf x)).isLt
  by_cases hzero : (unpackExponent (bitsOf x)).toNat = 0
  · have hunpack := unpack_of_exponent_zero hzero
    rw [ofFloat_of_exponent_zero hzero] at h
    cases h
    by_cases hnone : (unpackMantissa (bitsOf x)).toNat = 0
    · exact .inl ⟨_, hnone, hunpack.trans (dif_pos hnone)⟩
    · have hparts : IsParts (unpackMantissa (bitsOf x)).toNat minExponent :=
        ⟨Nat.pos_of_ne_zero hnone, by omega, le_refl _, .inr rfl⟩
      exact .inr ⟨_, hparts, hunpack.trans (dif_neg hnone)⟩
  · have hpos := Nat.pos_of_ne_zero hzero
    rw [ofFloat_of_exponent_pos hpos hlt] at h
    cases h
    have hle : minExponent ≤ ((unpackExponent (bitsOf x)).toNat : Int) - 1075 := by
      unfold minExponent
      omega
    have hparts : IsParts (leadingBit + (unpackMantissa (bitsOf x)).toNat)
        ((unpackExponent (bitsOf x)).toNat - 1075) :=
      ⟨by omega, by omega, hle, .inl (Nat.le_add_right _ _)⟩
    exact .inr ⟨Sign.ofBitVec (unpackSign (bitsOf x)), hparts, unpack_of_exponent_pos hpos hlt⟩

end Binary64

namespace Decimal

/-- **The text of a positive double denotes the number** that its shortest digits stand for. -/
theorem exists_denotes_positive (m : Nat) (q : Int) :
    ∃ d places, Denotes (plainLayout.positive m q) d places ∧
      (d * 10 ^ (-(places : Int)) : ℚ) = (shortest m q).1 * 10 ^ (shortest m q).2 := by
  change ∃ d places, Denotes (plainLayout.point (Layout.significant (shortest m q).1)
    ((Nat.toDigits 10 (shortest m q).1).length + (shortest m q).2)) d places ∧ _
  obtain ⟨digits, k⟩ := shortest m q
  dsimp only
  obtain ⟨n, hdigits, hlength⟩ := Layout.exists_ofDigits_significant digits
  obtain ⟨d, places, hdenotes, hvalue⟩ := exists_denotes_point (Layout.isDigit_significant digits)
    ((Nat.toDigits 10 digits).length + k)
  refine ⟨d, places, hdenotes, ?_⟩
  have hexponent : ((Nat.toDigits 10 digits).length + k - (Layout.significant digits).length) =
      n + k := by
    omega
  have hten : (digits : ℚ) = 10 ^ n * ofDigits (Layout.significant digits) := by
    exact_mod_cast hdigits
  rw [hvalue, hexponent, zpow_add₀ (by norm_num), zpow_natCast, hten]
  ring

variable {x : Float}

/-- **An absolute value is read back** from its text. -/
theorem read?_plain_abs (h : x.isFinite = true) : read? (plain x.abs) = some x.abs := by
  obtain ⟨m, q, hparts, habs⟩ := Binary64.exists_ofFloat_eq h
  rw [plain, Layout.write, Layout.chars, habs]
  simp only [Bool.false_eq_true, if_false, List.nil_append]
  have hmodel : x.abs = Float.ofModel (Float.Model.pack x.toModel.unpack.abs) := rfl
  rcases Binary64.unpack_of_ofFloat h hparts with ⟨s, rfl, hunpack⟩ | ⟨s, hparts, hunpack⟩
  · have hzero : (0.0 : Float) = Float.ofModel (Float.Model.pack (.zero .positive)) := by
      rfl
    rw [if_pos rfl, hmodel, hunpack]
    exact (Denotes.whole (Layout.isDigit_zeros 1) (List.cons_ne_nil _ _)).read?_eq.trans (congrArg some hzero)
  · obtain ⟨d, places, hdenotes, hvalue⟩ := exists_denotes_positive m q
    have hrounds := roundsTo_shortest (q := q) hparts.pos
    rw [← hvalue] at hrounds
    have hd : 0 < d := by
      have hpos := hrounds.pos hparts.pos
      apply Nat.pos_of_ne_zero
      rintro rfl
      rw [Nat.cast_zero, zero_mul] at hpos
      exact lt_irrefl _ hpos
    rw [if_neg hparts.pos.ne', hdenotes.read?_eq, nearest_eq hparts hd hrounds, hmodel, hunpack]
    rfl

end Decimal

end Abacus
