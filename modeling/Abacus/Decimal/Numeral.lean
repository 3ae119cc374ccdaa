/-!
# Reading numbers

A numeral is an optional sign and then either digits with an optional point and an optional
decimal exponent, or one of the words `inf`, `infinity` and `nan` in any case.  It stands for the
double nearest to the decimal number it spells, the even one of two equally near.

## Main definitions

* `read?`: the double a numeral stands for.
-/

namespace Abacus.Decimal

/-- The whole number that a row of ASCII digits spells. -/
def ofDigits (cs : List Char) : Nat :=
  cs.foldl (fun n c => 10 * n + (c.toNat - '0'.toNat)) 0

/-- The double nearest to `m * 10 ^ e`.  From `10 ^ 311` on numbers are larger than all doubles,
and below `10 ^ -399` they are nearest to zero; so a short numeral never asks for a long power of
ten. -/
def nearest (m : Nat) (e : Int) : Float :=
  if m = 0 then 0.0
  else if 310 < e then 1.0 / 0.0
  else if e + m.log2 < -400 then 0.0
  else Float.ofScientific m (e < 0) e.natAbs

/-- A row of at least one digit and nothing else, as a number. -/
def readNatural? (cs : List Char) : Option Nat :=
  if cs.isEmpty || !cs.all Char.isDigit then none else some (ofDigits cs)

/-- The exponent a numeral ends in: none, or a letter `e`, an optional sign and digits. -/
def readExponent? : List Char → Option Int
  | [] => some 0
  | 'e' :: cs | 'E' :: cs =>
    match cs with
    | '-' :: ds => (readNatural? ds).map fun n => -(n : Int)
    | '+' :: ds => (readNatural? ds).map fun n => (n : Int)
    | ds => (readNatural? ds).map fun n => (n : Int)
  | _ => none

/-- Digits with an optional point among them, and an exponent. -/
def readDecimal? (cs : List Char) : Option Float :=
  let whole := cs.takeWhile Char.isDigit
  let (fraction, rest) :=
    match cs.dropWhile Char.isDigit with
    | '.' :: ds => (ds.takeWhile Char.isDigit, ds.dropWhile Char.isDigit)
    | ds => ([], ds)
  if whole.isEmpty && fraction.isEmpty then none
  else (readExponent? rest).map fun e =>
    nearest (ofDigits (whole ++ fraction)) (e - fraction.length)

/-- A numeral without its sign. -/
def readUnsigned? (cs : List Char) : Option Float :=
  match String.ofList (cs.map Char.toLower) with
  | "inf" | "infinity" => some (1.0 / 0.0)
  | "nan" => some (0.0 / 0.0)
  | _ => readDecimal? cs

/-- **The double a numeral stands for**, if the text is one. -/
def read? (s : String) : Option Float :=
  match s.toList with
  | '-' :: cs => (readUnsigned? cs).map fun x => -x
  | '+' :: cs => readUnsigned? cs
  | cs => readUnsigned? cs

end Abacus.Decimal
