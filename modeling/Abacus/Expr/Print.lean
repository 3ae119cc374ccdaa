import Abacus.Decimal.Layout
import Abacus.Expr

/-!
# Writing expressions

An expression as text.  Parentheses that are nodes are written as they stand; others are added
only around an operand that would otherwise be read differently:

* an operand of an operator, if it binds less tightly, or as tightly on the side to which the
  operator does not group;
* a negation, or a negative number, raised to a power;
* an operand of a minus sign, if it is a binary operation other than a power.

## Main definitions

* `Expr.needsParens`, `Expr.needsParensAfterSign`: the rule;
* `Expr.print`: the text.
-/

namespace Abacus

/-- The sides of a binary operator. -/
inductive Side where
  | left | right
deriving DecidableEq, Repr

namespace Expr

/-- An operand on a side of an operator has to be put in parentheses. -/
def needsParens (operand : Expr) (op : BinaryOp) (side : Side) : Bool :=
  match operand with
  | binary inner _ _ =>
    if inner.precedence.rank = op.precedence.rank then
      match op.associativity with
      | .left => side == .right
      | .right => side == .left
    else inner.precedence.rank < op.precedence.rank
  | neg _ => op == .power && side == .left
  | num value => (Binary64.ofFloat value).isNegative && op == .power && side == .left
  | _ => false

/-- The operand of a minus sign has to be put in parentheses. -/
def needsParensAfterSign : Expr → Bool
  | binary op _ _ => op != .power
  | _ => false

/-- A text, in parentheses if asked. -/
def parenthesize (wanted : Bool) (text : String) : String :=
  if wanted then "(" ++ text ++ ")" else text

/-- An operator between its operands: a power is written tight, the others between spaces. -/
def spaced (op : BinaryOp) : String :=
  if op = .power then op.char.toString else " " ++ op.char.toString ++ " "

mutual

/-- **An expression as text.** -/
def print : Expr → String
  | num value => Decimal.plain value
  | var name => name
  | group inner => "(" ++ print inner ++ ")"
  | neg operand => "-" ++ parenthesize operand.needsParensAfterSign (print operand)
  | trailingNeg operand => parenthesize operand.needsParensAfterSign (print operand) ++ "-"
  | binary op left right =>
    parenthesize (left.needsParens op .left) (print left) ++ spaced op ++
      parenthesize (right.needsParens op .right) (print right)
  | call name arguments => name ++ "(" ++ printArguments arguments ++ ")"

/-- Arguments between commas. -/
def printArguments : List Expr → String
  | [] => ""
  | [argument] => print argument
  | argument :: rest => print argument ++ ", " ++ printArguments rest

end

end Expr

end Abacus
