import Abacus.Decimal.Remainder
import Abacus.Error
import Abacus.Token

/-!
# Operators

The six binary operators, how tightly they bind, to which side they group, and what they compute
on doubles.  Sums bind least; products, quotients and remainders more; powers most.  Only powers
group to the right.

## Main definitions

* `BinaryOp.precedence`, `BinaryOp.associativity`: how an operator binds and groups;
* `BinaryOp.apply`: what it computes.
-/

namespace Abacus

/-- How tightly an operator binds; `none` stands for no operator at all. -/
inductive Precedence where
  | none | term | factor | exponent
deriving DecidableEq, Repr

namespace Precedence

/-- Tighter operators have higher ranks. -/
def rank : Precedence → Nat
  | none => 0
  | term => 2
  | factor => 3
  | exponent => 4

/-- The next tighter precedence; powers are the tightest. -/
def next : Precedence → Precedence
  | none => term
  | term => factor
  | factor | exponent => exponent

end Precedence

/-- The side to which operators of one precedence group. -/
inductive Associativity where
  | left | right
deriving DecidableEq, Repr

/-- The binary operators. -/
inductive BinaryOp where
  | add | subtract | multiply | divide | modulo | power
deriving DecidableEq, Repr

namespace BinaryOp

/-- The symbol an operator is written with. -/
def symbol : BinaryOp → Symbol
  | add => .plus
  | subtract => .minus
  | multiply => .star
  | divide => .slash
  | modulo => .percent
  | power => .caret

/-- The operator a symbol is written for, if any. -/
def ofSymbol? : Symbol → Option BinaryOp
  | .plus => some add
  | .minus => some subtract
  | .star => some multiply
  | .slash => some divide
  | .percent => some modulo
  | .caret => some power
  | .leftParen | .rightParen | .comma => none

@[simp] theorem ofSymbol?_symbol (op : BinaryOp) : ofSymbol? op.symbol = some op := by
  cases op <;> rfl

/-- The character an operator is written with. -/
def char (op : BinaryOp) : Char := op.symbol.char

/-- How tightly an operator binds. -/
def precedence : BinaryOp → Precedence
  | add | subtract => .term
  | multiply | divide | modulo => .factor
  | power => .exponent

/-- The side to which an operator groups. -/
def associativity : BinaryOp → Associativity
  | power => .right
  | _ => .left

/-- **What an operator computes.**  Dividing by a zero of either sign is an error; a remainder by
zero is not, and is not a number. -/
def apply (op : BinaryOp) (x y : Float) : Except RuntimeError Float :=
  match op with
  | add => .ok (x + y)
  | subtract => .ok (x - y)
  | multiply => .ok (x * y)
  | divide => if y == 0.0 then .error (.here .divisionByZero) else .ok (x / y)
  | modulo => .ok (Binary64.remainder x y)
  | power => .ok (x ^ y)

end BinaryOp

namespace Kind

/-- The operator a token of this sort stands for, if any. -/
def operator? : Kind → Option BinaryOp
  | symbol s => BinaryOp.ofSymbol? s
  | _ => none

/-- How tightly the operator of this sort binds. -/
def precedence (k : Kind) : Precedence :=
  match k.operator? with
  | some op => op.precedence
  | none => .none

end Kind

end Abacus
