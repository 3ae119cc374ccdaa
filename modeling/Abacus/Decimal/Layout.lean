import Abacus.Decimal.Shortest

/-!
# Writing numbers

The two ways a double is written: the plain one, for everything a user reads, never has an
exponent and no point after a whole number; the diagnostic one marks whole numbers as numbers and
turns to an exponent for very large and very small magnitudes.  Both write the shortest digits.

## Main definitions

* `Layout`: the decisions of a way of writing;
* `Layout.write`: a double written that way;
* `plain`, `diagnostic`: the two layouts at work.
-/

namespace Abacus.Decimal

/-- How numbers are written. -/
structure Layout where
  /-- Whether a number whose first digit counts `10 ^ e` is written without exponent. -/
  positional : Int → Bool
  /-- What follows a whole number written without exponent. -/
  wholeMark : List Char

/-- No exponent, and nothing after whole numbers. -/
def plainLayout : Layout := ⟨fun _ => true, []⟩

/-- An exponent from `10 ^ 16` up and below `10 ^ -4`; whole numbers end in `.0`. -/
def diagnosticLayout : Layout := ⟨fun e => decide (-4 ≤ e ∧ e ≤ 15), ['.', '0']⟩

namespace Layout

/-- A run of zeros. -/
def zeros (n : Nat) : List Char := List.replicate n '0'

/-- Digits with the point after the first `place` of them, filled up with zeros. -/
def point (layout : Layout) (digits : List Char) (place : Int) : List Char :=
  if place ≤ 0 then '0' :: '.' :: (zeros (-place).toNat ++ digits)
  else if digits.length ≤ place.toNat then
    digits ++ zeros (place.toNat - digits.length) ++ layout.wholeMark
  else digits.take place.toNat ++ '.' :: digits.drop place.toNat

/-- A whole number in decimal, with its sign if it is negative. -/
def integer (n : Int) : List Char :=
  if n < 0 then '-' :: Nat.toDigits 10 n.natAbs else Nat.toDigits 10 n.natAbs

/-- Digits with the point after the first, and an exponent. -/
def scientific (digits : List Char) (exponent : Int) : List Char :=
  match digits with
  | first :: second :: rest => first :: '.' :: second :: rest ++ 'e' :: integer exponent
  | _ => digits ++ 'e' :: integer exponent

/-- The digits of a whole number without the zeros at its end. -/
def significant (d : Nat) : List Char :=
  ((Nat.toDigits 10 d).reverse.dropWhile (· == '0')).reverse

/-- A positive double `m * 2 ^ q` in digits. -/
def positive (layout : Layout) (m : Nat) (q : Int) : List Char :=
  let (d, k) := shortest m q
  let place : Int := (Nat.toDigits 10 d).length + k
  if layout.positional (place - 1) then layout.point (significant d) place
  else scientific (significant d) (place - 1)

/-- A double in characters. -/
def chars (layout : Layout) (x : Float) : List Char :=
  match Binary64.ofFloat x with
  | .notANumber => ['N', 'a', 'N']
  | .infinite negative => (if negative then ['-'] else []) ++ ['i', 'n', 'f']
  | .finite negative m q =>
    (if negative then ['-'] else []) ++
      if m = 0 then '0' :: layout.wholeMark else layout.positive m q

/-- **A double written** in a layout. -/
def write (layout : Layout) (x : Float) : String :=
  String.ofList (layout.chars x)

end Layout

/-- A double as a user reads it. -/
def plain (x : Float) : String := plainLayout.write x

/-- A double as a diagnostic text shows it. -/
def diagnostic (x : Float) : String := diagnosticLayout.write x

end Abacus.Decimal
