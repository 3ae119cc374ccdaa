import Abacus.Decimal.Binary64

/-!
# The remainder of a truncated division

`x % y` is what is left of `x` after the whole multiples of `y` that fit into it: it has the sign
of `x` and a magnitude below that of `y`.  On doubles it is always exact, so it is computed on
the whole numbers behind them.
-/

namespace Abacus.Binary64

/-- The parts of `x % y` for finite parts, on the finer of the two scales. -/
def remainderParts (mx : Nat) (qx : Int) (my : Nat) (qy : Int) : Nat × Int :=
  let q := min qx qy
  ((mx <<< (qx - q).toNat) % (my <<< (qy - q).toNat), q)

/-- **The remainder** of `x` divided by `y`, rounded toward zero.  There is none for a zero
divisor or an infinite dividend; an infinite divisor leaves a finite dividend alone. -/
def remainder (x y : Float) : Float :=
  match ofFloat x, ofFloat y with
  | finite negative mx qx, finite _ my qy =>
    if my = 0 then 0.0 / 0.0
    else
      let parts := remainderParts mx qx my qy
      scaled negative parts.1 parts.2
  | finite _ _ _, infinite _ => x
  | _, _ => 0.0 / 0.0

/-- The remainder stays below the divisor, measured on the common scale. -/
theorem remainderParts_lt {my : Nat} (h : 0 < my) (mx : Nat) (qx qy : Int) :
    (remainderParts mx qx my qy).1 < my <<< (qy - min qx qy).toNat :=
  Nat.mod_lt _ (by rw [Nat.shiftLeft_eq]; exact Nat.mul_pos h (Nat.two_pow_pos _))

end Abacus.Binary64
