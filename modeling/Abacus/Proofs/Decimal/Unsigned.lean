import Abacus.Proofs.Decimal.ReadBack

/-!
# Numbers that are read from digits

Digits stand for no negative number, and not for what is not a number.  They are read as a finite
double without a minus sign, or, where the range of doubles is left, as the positive infinite one.
The first is read back from its text.  The second is written as a word.

## Main definitions

* `Unsigned`: finite doubles without a minus sign, and the positive infinite one

## Main results

* `Decimal.unsigned_nearest`: decimal numbers are unsigned
* `Unsigned.read?_plain`: finite ones are read back
* `Unsigned.plain_eq`: the infinite one is written as a word
-/

namespace Abacus

namespace Binary64

open Float.Model Float.Model.UnpackedFloat

/-! ### Without a minus sign -/

/-- Taken apart, a number without a minus sign. -/
inductive Positive : UnpackedFloat → Prop
  | zero : Positive (.zero .positive)
  | infinity : Positive (.infinity .positive)
  | finite (m : Nat) (q : Int) (h : 0 < m) : Positive (.finite .positive m q h)

theorem Positive.dite {c : Prop} [Decidable c] {u : c → UnpackedFloat} {v : ¬c → UnpackedFloat}
    (hu : ∀ h, Positive (u h)) (hv : ∀ h, Positive (v h)) :
    Positive (if h : c then u h else v h) := by
  by_cases h : c
  · rw [dif_pos h]
    exact hu h
  · rw [dif_neg h]
    exact hv h

/-- Rounding keeps the sign. -/
theorem positive_roundWithAccuracy (m : Nat) (q : Int) (accuracy : Accuracy) :
    Positive (roundWithAccuracy .binary64 .positive m q accuracy) := by
  unfold roundWithAccuracy
  exact .dite (fun _ => .zero) fun _ => .finite _ _ _

theorem positive_ofScientific (d : Nat) (e : Int) :
    Positive (UnpackedFloat.ofScientific .binary64 d e) := by
  unfold UnpackedFloat.ofScientific
  -- nothing, too large and too small
  refine .dite (fun _ => .zero) fun _ => ?_
  refine .dite (fun _ => .infinity) fun _ => .dite (fun _ => .zero) fun _ => ?_
  -- a product or a quotient of two positive numbers, which is rounded
  exact .dite (fun _ => positive_roundWithAccuracy _ _ _) fun _ => positive_roundWithAccuracy _ _ _

/-- The fields of a number without a minus sign.  With all bits of the exponent set there are none
of the significand, as it is an infinite one then. -/
theorem Positive.exists_pack_eq {u : UnpackedFloat} (h : Positive u) :
    ∃ e m, UnpackedFloat.pack .binary64 u = packComponents .binary64 .positive e m ∧
      (e = -1#_ → m = 0#_) := by
  cases h with
  | zero => exact ⟨0#_, 0#_, rfl, fun _ => rfl⟩
  | infinity => exact ⟨-1#_, 0#_, rfl, fun _ => rfl⟩
  | finite m q h =>
    delta UnpackedFloat.pack
    dsimp only
    split
    · exact ⟨-1#_, 0#_, rfl, fun _ => rfl⟩
    · next hrange =>
      split
      · refine ⟨_, _, rfl, fun hall => ?_⟩
        have hexponent := congrArg BitVec.toNat hall
        rw [BitVec.toNat_ofNat] at hexponent
        change _ % 2 ^ 11 = 2047 at hexponent
        change ¬ 2 ^ 11 ≤ _ + 1 at hrange
        omega
      · exact ⟨0#_, _, rfl, fun hall => absurd hall (by decide)⟩

section

variable {x : Float}

/-- A double is finite unless all bits of its exponent are set. -/
theorem isFinite_of_unpackExponent_lt (h : (unpackExponent (bitsOf x)).toNat < 2047) :
    x.isFinite = true := by
  change (unpack .binary64 (bitsOf x)).isFinite = true
  by_cases hzero : (unpackExponent (bitsOf x)).toNat = 0
  · rw [unpack_of_exponent_zero hzero]
    by_cases hsmall : (unpackMantissa (bitsOf x)).toNat = 0
    · rw [dif_pos hsmall]
      rfl
    · rw [dif_neg hsmall]
      rfl
  · rw [unpack_of_exponent_pos (Nat.pos_of_ne_zero hzero) h]
    rfl

/-- With all of them set and none of the significand it is infinite. -/
theorem ofFloat_of_exponent_all (hexponent : unpackExponent (bitsOf x) = -1#_)
    (hmantissa : unpackMantissa (bitsOf x) = 0#_) :
    x.isFinite = false ∧ ofFloat x = .infinite (signBit ≤ x.toBits.toNat) := by
  have hbiased : (x.toBits.toNat >>> 52) % 2048 = 2047 := by
    rw [exponent_eq, hexponent]
    rfl
  have hfraction : x.toBits.toNat % leadingBit = 0 := by
    rw [fraction_eq, hmantissa]
    rfl
  constructor
  · change (unpack .binary64 (bitsOf x)).isFinite = false
    unfold UnpackedFloat.unpack
    rw [if_pos hexponent, if_pos hmantissa]
    rfl
  · unfold ofFloat
    dsimp only
    rw [if_pos hbiased, if_pos hfraction]

/-- The absolute value of a finite double is finite. -/
theorem isFinite_abs (h : x.isFinite = true) : x.abs.isFinite = true := by
  have hexponent : unpackExponent (bitsOf x.abs) = unpackExponent (bitsOf x) := by
    rw [bitsOf_abs h]
    exact unpackExponent_packComponents
  exact isFinite_of_unpackExponent_lt (hexponent ▸ unpackExponent_lt_of_isFinite h)

/-- It has no minus sign. -/
theorem isNegative_abs (h : x.isFinite = true) : (ofFloat x.abs).isNegative = false := by
  obtain ⟨m, q, -, habs⟩ := exists_ofFloat_eq h
  rw [habs]
  rfl

end

end Binary64

open Binary64 Float.Model Float.Model.UnpackedFloat

/-- **Doubles that digits stand for**: finite ones without a minus sign, and the positive infinite
one. -/
inductive Unsigned (x : Float) : Prop
  | finite : x.isFinite = true → (Binary64.ofFloat x).isNegative = false → Unsigned x
  | infinite : x.isFinite = false → Binary64.ofFloat x = .infinite false → Unsigned x

/-- A double is unsigned if it is put together from what has no minus sign. -/
theorem Binary64.Positive.unsigned {u : UnpackedFloat} (h : Positive u) :
    Unsigned (Float.ofModel (Float.Model.pack u)) := by
  obtain ⟨e, m, hpack, hall⟩ := h.exists_pack_eq
  generalize hx : Float.ofModel (Float.Model.pack u) = x
  have hbits : bitsOf x = packComponents .binary64 .positive e m := hx ▸ hpack
  have hexponent : unpackExponent (bitsOf x) = e := hbits ▸ unpackExponent_packComponents
  have hmantissa : unpackMantissa (bitsOf x) = m := hbits ▸ unpackMantissa_packComponents
  have he : e.toNat < 2 ^ 11 := e.isLt
  have hm : m.toNat < 2 ^ 52 := m.isLt
  -- the other two fields stay below the bit of the sign
  have hsign : decide (signBit ≤ x.toBits.toNat) = false := by
    have hvalue : x.toBits.toNat = (bitsOf x).toNat := rfl
    apply decide_eq_false
    rw [hvalue, hbits, toNat_packComponents]
    change ¬ signBit ≤ 0 * 2 ^ 63 + _ + _
    unfold signBit
    omega
  by_cases hinfinite : e = -1#_
  · obtain ⟨hnot, hparts⟩ := ofFloat_of_exponent_all (hexponent.trans hinfinite)
      (hmantissa.trans (hall hinfinite))
    rw [hsign] at hparts
    exact .infinite hnot hparts
  -- some bit of the exponent is not set
  · have hne : e.toNat ≠ 2047 := fun hlast => hinfinite (BitVec.eq_of_toNat_eq hlast)
    have hfinite : x.isFinite = true := isFinite_of_unpackExponent_lt (by rw [hexponent]; omega)
    obtain ⟨n, q, hparts, -⟩ := exists_ofFloat_eq hfinite
    refine .finite hfinite ?_
    rw [hparts]
    exact hsign

/-! ### Reading -/

namespace Binary64

section

variable {x y : Float} {a b : Nat} (hx : Exactly x a) (hy : Exactly y b)

include hx hy

theorem Exactly.unsigned_div : Unsigned (x / y) := by
  obtain ⟨m₁, e₁, h₁, -, -, hunpack₁⟩ := hx
  obtain ⟨m₂, e₂, h₂, -, -, hunpack₂⟩ := hy
  change Unsigned (Float.ofModel (Float.Model.pack
    (UnpackedFloat.div .binary64 x.toModel.unpack y.toModel.unpack)))
  rw [hunpack₁, hunpack₂]
  exact (positive_roundWithAccuracy _ _ _).unsigned

theorem Exactly.unsigned_mul : Unsigned (x * y) := by
  obtain ⟨m₁, e₁, h₁, -, -, hunpack₁⟩ := hx
  obtain ⟨m₂, e₂, h₂, -, -, hunpack₂⟩ := hy
  change Unsigned (Float.ofModel (Float.Model.pack
    (UnpackedFloat.mul .binary64 x.toModel.unpack y.toModel.unpack)))
  rw [hunpack₁, hunpack₂]
  exact (positive_roundWithAccuracy _ _ _).unsigned

end

end Binary64

namespace Decimal

theorem unsigned_zero : Unsigned 0.0 := Positive.zero.unsigned

theorem unsigned_infinite : Unsigned (1.0 / 0.0) := Positive.infinity.unsigned

theorem unsigned_ofScientific {d : Nat} (hd : 0 < d) (negative : Bool) (e : Nat) :
    Unsigned (Float.ofScientific d negative e) := by
  unfold Float.ofScientific
  split
  · next hshort =>
    -- two doubles that stand for positive numbers
    have hexact := exactly_toFloat hd hshort.1
    have hpower := exactly_table e (Nat.lt_succ_of_le hshort.2)
    dsimp only
    split
    · exact hexact.unsigned_div hpower
    · exact hexact.unsigned_mul hpower
  · exact (positive_ofScientific d _).unsigned

/-- **A decimal number is read as an unsigned double.** -/
theorem unsigned_nearest (d : Nat) (e : Int) : Unsigned (nearest d e) := by
  unfold nearest
  split
  · exact unsigned_zero
  · next hd =>
    split
    · exact unsigned_infinite
    · split
      · exact unsigned_zero
      · exact unsigned_ofScientific (Nat.pos_of_ne_zero hd) _ _

/-- The digits of a number spell an unsigned one. -/
theorem exists_read?_of_isNumeral {digits : String} (h : IsNumeral digits.toList) :
    ∃ value, read? digits = some value ∧ Unsigned value := by
  generalize hcs : digits.toList = cs at h
  obtain rfl : digits = String.ofList cs := by rw [← hcs, String.ofList_toList]
  cases h with
  | @whole c ds hds =>
    have hread := readDecimal?_digits hds nofun
    rw [← read?_of_isDigit (hds c List.mem_cons_self)] at hread
    exact ⟨_, hread, unsigned_nearest _ _⟩
  | @point c ds es hds hes =>
    have hread := readDecimal?_digits_point hds nofun hes
    rw [List.cons_append, ← read?_of_isDigit (hds c List.mem_cons_self)] at hread
    exact ⟨_, hread, unsigned_nearest _ _⟩

end Decimal

/-! ### Writing -/

namespace Unsigned

variable {x : Float}

theorem isNegative_eq (h : Unsigned x) : (Binary64.ofFloat x).isNegative = false := by
  cases h with
  | finite _ hsign => exact hsign
  | infinite _ hparts => rw [hparts, Binary64.isNegative]

/-- **A finite one is read back** from its text, which is made of digits. -/
theorem read?_plain (h : Unsigned x) (hfinite : x.isFinite = true) :
    IsNumeral (Decimal.plain x).toList ∧ Decimal.read? (Decimal.plain x) = some x := by
  have hnumeral := Decimal.isNumeral_plain_abs hfinite
  have hread := Decimal.read?_plain_abs hfinite
  rw [Binary64.abs_eq_self hfinite h.isNegative_eq] at hnumeral hread
  exact ⟨hnumeral, hread⟩

/-- **The infinite one is written as a word.** -/
theorem plain_eq (h : Unsigned x) (hinfinite : x.isFinite = false) : Decimal.plain x = "inf" := by
  cases h with
  | finite hfinite _ =>
    rw [hinfinite] at hfinite
    cases hfinite
  | infinite _ hparts =>
    rw [Decimal.plain, Decimal.Layout.write, Decimal.Layout.chars, hparts]
    rfl

end Unsigned

end Abacus
