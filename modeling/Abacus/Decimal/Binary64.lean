/-!
# Doubles, exactly

A finite double is a whole number of units of a power of two.  Here it is taken apart into that
number and that power, so that decimal texts and remainders can be computed without rounding.

## Main definitions

* `Binary64`: a double taken apart;
* `Binary64.ofFloat`: the parts of a double;
* `Binary64.scaled`: the double with given parts.
-/

namespace Abacus

/-- A double taken apart.  A finite one is `significand * 2 ^ exponent`, negated if `negative`. -/
inductive Binary64 where
  | notANumber
  | infinite (negative : Bool)
  | finite (negative : Bool) (significand : Nat) (exponent : Int)
deriving DecidableEq, Repr

namespace Binary64

/-- The exponent of the smallest positive double. -/
def minExponent : Int := -1074

/-- The sign bit, `2 ^ 63`. -/
def signBit : Nat := 9223372036854775808

/-- The leading bit that a double does not write, `2 ^ 52`. -/
def leadingBit : Nat := 4503599627370496

/-- The parts of a double: one sign bit, eleven bits of exponent, 52 bits of fraction.  Every
double but the smallest ones has an unwritten leading bit. -/
def ofFloat (x : Float) : Binary64 :=
  let bits := x.toBits.toNat
  let negative : Bool := signBit ≤ bits
  let biased : Nat := (bits >>> 52) % 2048
  let fraction := bits % leadingBit
  if biased = 2047 then
    if fraction = 0 then infinite negative else notANumber
  else if biased = 0 then finite negative fraction minExponent
  else finite negative (leadingBit + fraction) (minExponent + ((biased : Int) - 1))

/-- The double `m * 2 ^ q`, negated if asked, for an `m` and a `q` of which some double is the
exact value. -/
def scaled (negative : Bool) (m : Nat) (q : Int) : Float :=
  let e := max (m.log2 + q - 52) minExponent
  let s := if e ≤ q then m <<< (q - e).toNat else m >>> (e - q).toNat
  let magnitude :=
    if s < leadingBit then s
    else (e - minExponent + 1).toNat * leadingBit + (s - leadingBit)
  Float.ofBits (UInt64.ofNat ((if negative then signBit else 0) + magnitude))

/-- The sign of a double, which a zero has too. -/
def isNegative : Binary64 → Bool
  | notANumber => false
  | infinite negative | finite negative _ _ => negative

end Binary64

end Abacus
