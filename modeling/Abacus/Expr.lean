import Abacus.Operator

/-!
# Expressions

Expressions as trees.  Parentheses a user wrote are nodes of their own, so that a tree can be
written back as it was read.  A minus sign behind its operand has a node too: no text is read as
one, but a tree may hold it.
-/

namespace Abacus

/-- An arithmetic expression. -/
inductive Expr where
  | num (value : Float)
  | var (name : String)
  /-- An expression in parentheses. -/
  | group (inner : Expr)
  | neg (operand : Expr)
  /-- A minus sign behind its operand. -/
  | trailingNeg (operand : Expr)
  | binary (op : BinaryOp) (left right : Expr)
  | call (name : String) (arguments : List Expr)
  deriving Inhabited

end Abacus
