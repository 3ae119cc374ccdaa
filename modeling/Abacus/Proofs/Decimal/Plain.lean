import Abacus.Decimal.Layout
import Abacus.Proofs.Decimal.Sign
import Abacus.Proofs.Token.Reading
import Mathlib.Algebra.Order.Field.Rat
import Mathlib.Tactic.FieldSimp
import Mathlib.Tactic.Ring

/-!
# How plain numbers look

A finite double is written with digits, of which a point may have some behind it, and with a minus
sign before them if it has one.  The digits are those of its absolute value.  Wherever the point
stands, they denote the number that the shortest digits stand for.

## Main definitions

* `Denotes`: digits and a point, as a whole number with some of its places behind the point

## Main results

* `Denotes.read?_eq`: what is read
* `exists_denotes_point`: wherever the point stands
* `toList_plain`: the sign before it
-/

namespace Abacus.Decimal

/-! ### Rows of digits -/

theorem ofDigits_append (cs ds : List Char) :
    ofDigits (cs ++ ds) = 10 ^ ds.length * ofDigits cs + ofDigits ds :=
  (Nat.ofDigitChars_append 0).trans Nat.ofDigitChars_eq_ofDigitChars_zero

theorem ofDigits_zeros (n : Nat) : ofDigits (Layout.zeros n) = 0 :=
  Nat.ofDigitChars_replicate_zero

theorem Layout.length_zeros (n : Nat) : (zeros n).length = n := List.length_replicate

theorem ofDigits_append_zeros (cs : List Char) (n : Nat) :
    ofDigits (cs ++ Layout.zeros n) = 10 ^ n * ofDigits cs := by
  rw [ofDigits_append, ofDigits_zeros, Nat.add_zero, Layout.length_zeros]

theorem ofDigits_zeros_append (n : Nat) (cs : List Char) :
    ofDigits (Layout.zeros n ++ cs) = ofDigits cs := by
  rw [ofDigits_append, ofDigits_zeros, Nat.mul_zero, Nat.zero_add]

namespace Layout

theorem isDigit_zeros (n : Nat) : ∀ c ∈ zeros n, c.isDigit = true := by
  intro c hc
  rw [List.eq_of_mem_replicate hc]
  rfl

theorem isDigit_significant (d : Nat) : ∀ c ∈ significant d, c.isDigit = true := by
  intro c hc
  rw [significant, List.mem_reverse] at hc
  have hmem : c ∈ Nat.toDigits 10 d := by
    rw [← List.mem_reverse]
    exact (List.dropWhile_suffix _).subset hc
  exact Nat.isDigit_of_mem_toDigits (by decide) (by decide) hmem

/-- The digits of a whole number are the significant ones and zeros behind them. -/
theorem exists_significant_append (d : Nat) :
    ∃ n, Nat.toDigits 10 d = significant d ++ zeros n := by
  have hzeros : (Nat.toDigits 10 d).reverse.takeWhile (· == '0') =
      zeros ((Nat.toDigits 10 d).reverse.takeWhile (· == '0')).length := by
    apply List.eq_replicate_of_mem
    intro c hc
    have hzero := List.mem_takeWhile_imp (p := fun x => x == '0') hc
    exact eq_of_beq hzero
  refine ⟨((Nat.toDigits 10 d).reverse.takeWhile (· == '0')).length, ?_⟩
  rw [← List.reverse_inj, List.reverse_append, significant, List.reverse_reverse,
    zeros, List.reverse_replicate, ← zeros, ← hzeros, List.takeWhile_append_dropWhile]

theorem exists_ofDigits_significant (d : Nat) :
    ∃ n, d = 10 ^ n * ofDigits (significant d) ∧
      (Nat.toDigits 10 d).length = (significant d).length + n := by
  obtain ⟨n, hn⟩ := exists_significant_append d
  refine ⟨n, ?_, ?_⟩
  · rw [← ofDigits_append_zeros, ← hn]
    exact Nat.ofDigitChars_ten_toDigits.symm
  · rw [hn, List.length_append, length_zeros]

end Layout

/-! ### Digits and a point -/

/-- **Digits, perhaps with a point among them**, denote a whole number of which some places are
behind the point. -/
inductive Denotes : List Char → Nat → Nat → Prop
  | whole {ds : List Char} : (∀ c ∈ ds, c.isDigit = true) → ds ≠ [] → Denotes ds (ofDigits ds) 0
  | point {ds es : List Char} : (∀ c ∈ ds, c.isDigit = true) → ds ≠ [] →
    (∀ c ∈ es, c.isDigit = true) → Denotes (ds ++ '.' :: es) (ofDigits (ds ++ es)) es.length

namespace Denotes

variable {cs : List Char} {d places : Nat}

theorem isNumeral (h : Denotes cs d places) : IsNumeral cs := by
  cases h with
  | whole hds hne =>
    obtain ⟨c, cs, rfl⟩ := List.exists_cons_of_ne_nil hne
    exact .whole hds
  | point hds hne hes =>
    obtain ⟨c, cs, rfl⟩ := List.exists_cons_of_ne_nil hne
    exact .point hds hes

/-- What is read is the nearest double to the number. -/
theorem read?_eq (h : Denotes cs d places) :
    read? (String.ofList cs) = some (nearest d (-(places : Int))) := by
  cases h with
  | whole hds hne =>
    obtain ⟨c, cs, rfl⟩ := List.exists_cons_of_ne_nil hne
    rw [read?_of_isDigit (hds c List.mem_cons_self), readDecimal?_digits hds hne]
    rfl
  | point hds hne hes =>
    have hread := readDecimal?_digits_point hds hne hes
    obtain ⟨c, cs, rfl⟩ := List.exists_cons_of_ne_nil hne
    rw [List.cons_append] at hread ⊢
    rw [read?_of_isDigit (hds c List.mem_cons_self), hread]

end Denotes

section

variable {digits : List Char} (h : ∀ c ∈ digits, c.isDigit = true)

include h

/-- All digits behind the point, after some zeros. -/
theorem denotes_behind (n : Nat) :
    Denotes ('0' :: '.' :: (Layout.zeros n ++ digits)) (ofDigits digits) (n + digits.length) := by
  have hdigits : ∀ c ∈ Layout.zeros n ++ digits, c.isDigit = true := by
    intro c hc
    rcases List.mem_append.mp hc with hc | hc
    · exact Layout.isDigit_zeros n c hc
    · exact h c hc
  have hpoint := Denotes.point (Layout.isDigit_zeros 1) nofun hdigits
  rw [ofDigits_zeros_append, ofDigits_zeros_append, List.length_append, Layout.length_zeros]
    at hpoint
  exact hpoint

/-- No point, and zeros behind the digits. -/
theorem denotes_whole {n : Nat} (hne : 0 < digits.length + n) :
    Denotes (digits ++ Layout.zeros n) (10 ^ n * ofDigits digits) 0 := by
  rw [← ofDigits_append_zeros]
  apply Denotes.whole
  · intro c hc
    rcases List.mem_append.mp hc with hc | hc
    · exact h c hc
    · exact Layout.isDigit_zeros n c hc
  · apply List.ne_nil_of_length_pos
    rw [List.length_append, Layout.length_zeros]
    exact hne

/-- The point among the digits. -/
theorem denotes_among {n : Nat} (hpos : 0 < n) (hlt : n < digits.length) :
    Denotes (digits.take n ++ '.' :: digits.drop n) (ofDigits digits) (digits.length - n) := by
  have hne : digits.take n ≠ [] := by
    apply List.ne_nil_of_length_pos
    rw [List.length_take]
    omega
  have htake : ∀ c ∈ digits.take n, c.isDigit = true := by
    intro c hc
    exact h c (List.mem_of_mem_take hc)
  have hdrop : ∀ c ∈ digits.drop n, c.isDigit = true := by
    intro c hc
    exact h c (List.mem_of_mem_drop hc)
  have hpoint := Denotes.point htake hne hdrop
  rw [List.take_append_drop, List.length_drop] at hpoint
  exact hpoint

/-- **Digits with a point after some of them** denote the number with so many whole places, even if
it takes zeros to fill them. -/
theorem exists_denotes_point (place : Int) :
    ∃ d places, Denotes (plainLayout.point digits place) d places ∧
      (d * 10 ^ (-(places : Int)) : ℚ) = ofDigits digits * 10 ^ (place - digits.length) := by
  unfold Layout.point
  split
  · refine ⟨_, _, denotes_behind h (-place).toNat, ?_⟩
    congr 2
    omega
  · split
    · next hlength =>
      have hdenotes := denotes_whole h (n := place.toNat - digits.length) (by omega)
      rw [← List.append_nil (digits ++ _)] at hdenotes
      refine ⟨_, _, hdenotes, ?_⟩
      have hexponent : place - digits.length = (place.toNat - digits.length : Nat) := by omega
      rw [hexponent, zpow_natCast]
      push_cast
      ring
    · refine ⟨_, _, denotes_among h (n := place.toNat) (by omega) (by omega), ?_⟩
      congr 2
      omega

end

variable {x : Float}

/-- **An absolute value** is written in digits, with one point at most. -/
theorem isNumeral_plain_abs (h : x.isFinite = true) : IsNumeral (plain x.abs).toList := by
  obtain ⟨m, q, -, hparts⟩ := Binary64.exists_ofFloat_eq h
  rw [plain, Layout.write, String.toList_ofList, Layout.chars, hparts]
  simp only [Bool.false_eq_true, if_false, List.nil_append]
  split
  · exact .whole (Layout.isDigit_zeros 1)
  · obtain ⟨_, _, hdenotes, -⟩ := exists_denotes_point (Layout.isDigit_significant _) _
    exact hdenotes.isNumeral

/-- **A finite double is written with its sign** before its absolute value. -/
theorem toList_plain (h : x.isFinite = true) :
    (plain x).toList =
      (if (Binary64.ofFloat x).isNegative then ['-'] else []) ++ (plain x.abs).toList := by
  obtain ⟨m, q, hparts, habs⟩ := Binary64.exists_ofFloat_eq h
  rw [plain, plain, Layout.write, Layout.write, String.toList_ofList, String.toList_ofList,
    Layout.chars, Layout.chars, hparts, habs]
  rfl

end Abacus.Decimal
