import Abacus.Expr.Parse

/-!
# Derivations

The grammar of expressions as a family of types.  A value of `Expression` is a derivation: it says
which rule is used where, and so which lexemes are derived, which tree they stand for, and how
many levels are taken while they are read.

    expression := term (('+' | '-') term)*
    term       := factor (('*' | '/' | '%') factor)*
    factor     := '+' factor | '-' factor | primary ('^' factor)?
    primary    := NUMBER | NAME | NAME '(' arguments ')' | '(' expression ')'
    arguments  := (expression (',' expression)*)?

A repetition is a tail, which continues what stands to its left.  Nothing here mentions a reader,
so that the readers can be measured against it.

## Main definitions

* `Expression`, `Term`, `Factor`, `Primary`, `Arguments`: derivations
* `Expression.lexemes`: the lexemes that are derived
* `Expression.tree`: the tree they stand for
* `Expression.levels`: the levels that are taken
-/

namespace Abacus.Grammar

/-! ### The rules -/

mutual

/-- An expression: a term, and terms joined to it by plus and minus signs. -/
inductive Expression where
  | chain (first : Term) (rest : SumTail)

/-- The terms after the first, each with its operator. -/
inductive SumTail where
  | nil
  | cons (op : BinaryOp) (isSum : op.precedence = .term) (operand : Term) (rest : SumTail)

/-- A term: a factor, and factors joined to it by the operators of products. -/
inductive Term where
  | chain (first : Factor) (rest : ProductTail)

/-- The factors after the first, each with its operator. -/
inductive ProductTail where
  | nil
  | cons (op : BinaryOp) (isProduct : op.precedence = .factor) (operand : Factor)
    (rest : ProductTail)

/-- A factor: one behind a sign, or a primary that may be raised to a power. -/
inductive Factor where
  | plus (operand : Factor)
  | minus (operand : Factor)
  | primary (p : Primary)
  | power (base : Primary) (exponent : Factor)

/-- A number, a variable, a call, or an expression in parentheses. -/
inductive Primary where
  | number (digits : String)
  | name (text : String)
  | call (text : String) (arguments : Arguments)
  | group (inner : Expression)

/-- What stands between the parentheses of a call. -/
inductive Arguments where
  | empty
  | list (first : Expression) (rest : ArgumentTail)

/-- The arguments after the first, each behind a comma. -/
inductive ArgumentTail where
  | nil
  | cons (argument : Expression) (rest : ArgumentTail)

end

/-! ### What is derived -/

mutual

/-- **The lexemes that are derived.** -/
def Expression.lexemes : Expression → List Lexeme
  | .chain first rest => first.lexemes ++ rest.lexemes

def SumTail.lexemes : SumTail → List Lexeme
  | .nil => []
  | .cons op _ operand rest => .symbol op.symbol :: (operand.lexemes ++ rest.lexemes)

def Term.lexemes : Term → List Lexeme
  | .chain first rest => first.lexemes ++ rest.lexemes

def ProductTail.lexemes : ProductTail → List Lexeme
  | .nil => []
  | .cons op _ operand rest => .symbol op.symbol :: (operand.lexemes ++ rest.lexemes)

def Factor.lexemes : Factor → List Lexeme
  | .plus operand => .symbol .plus :: operand.lexemes
  | .minus operand => .symbol .minus :: operand.lexemes
  | .primary p => p.lexemes
  | .power base exponent => base.lexemes ++ .symbol .caret :: exponent.lexemes

def Primary.lexemes : Primary → List Lexeme
  | .number digits => [.number digits]
  | .name text => [.name text]
  | .call text arguments =>
    .name text :: .symbol .leftParen :: (arguments.lexemes ++ [.symbol .rightParen])
  | .group inner => .symbol .leftParen :: (inner.lexemes ++ [.symbol .rightParen])

def Arguments.lexemes : Arguments → List Lexeme
  | .empty => []
  | .list first rest => first.lexemes ++ rest.lexemes

def ArgumentTail.lexemes : ArgumentTail → List Lexeme
  | .nil => []
  | .cons argument rest => .symbol .comma :: (argument.lexemes ++ rest.lexemes)

end

mutual

/-- The end of input is not derived. -/
theorem Expression.endOfInput_not_mem (d : Expression) : .endOfInput ∉ d.lexemes := by
  match d with
  | .chain first rest =>
    simp [Expression.lexemes, first.endOfInput_not_mem, rest.endOfInput_not_mem]

theorem SumTail.endOfInput_not_mem (d : SumTail) : .endOfInput ∉ d.lexemes := by
  match d with
  | .nil => simp [SumTail.lexemes]
  | .cons _ _ operand rest =>
    simp [SumTail.lexemes, operand.endOfInput_not_mem, rest.endOfInput_not_mem]

theorem Term.endOfInput_not_mem (d : Term) : .endOfInput ∉ d.lexemes := by
  match d with
  | .chain first rest =>
    simp [Term.lexemes, first.endOfInput_not_mem, rest.endOfInput_not_mem]

theorem ProductTail.endOfInput_not_mem (d : ProductTail) : .endOfInput ∉ d.lexemes := by
  match d with
  | .nil => simp [ProductTail.lexemes]
  | .cons _ _ operand rest =>
    simp [ProductTail.lexemes, operand.endOfInput_not_mem, rest.endOfInput_not_mem]

theorem Factor.endOfInput_not_mem (d : Factor) : .endOfInput ∉ d.lexemes := by
  match d with
  | .plus operand | .minus operand => simp [Factor.lexemes, operand.endOfInput_not_mem]
  | .primary p => simp [Factor.lexemes, p.endOfInput_not_mem]
  | .power base exponent =>
    simp [Factor.lexemes, base.endOfInput_not_mem, exponent.endOfInput_not_mem]

theorem Primary.endOfInput_not_mem (d : Primary) : .endOfInput ∉ d.lexemes := by
  match d with
  | .number _ | .name _ => simp [Primary.lexemes]
  | .call _ arguments => simp [Primary.lexemes, arguments.endOfInput_not_mem]
  | .group inner => simp [Primary.lexemes, inner.endOfInput_not_mem]

theorem Arguments.endOfInput_not_mem (d : Arguments) : .endOfInput ∉ d.lexemes := by
  match d with
  | .empty => simp [Arguments.lexemes]
  | .list first rest =>
    simp [Arguments.lexemes, first.endOfInput_not_mem, rest.endOfInput_not_mem]

theorem ArgumentTail.endOfInput_not_mem (d : ArgumentTail) : .endOfInput ∉ d.lexemes := by
  match d with
  | .nil => simp [ArgumentTail.lexemes]
  | .cons argument rest =>
    simp [ArgumentTail.lexemes, argument.endOfInput_not_mem, rest.endOfInput_not_mem]

end

/-! ### What it stands for -/

/-- The value of the digits of a number.  Those of a token always spell one. -/
def numberValue (digits : String) : Float := (Decimal.read? digits).getD 0.0

mutual

/-- **The tree that a derivation stands for.**  Chains nest to the left and powers to the right; a
power is inside the signs before it.  A plus sign leaves nothing, parentheses leave a node. -/
def Expression.tree : Expression → Expr
  | .chain first rest => rest.tree first.tree

/-- A tail makes one tree of what stands to its left and of its own operands. -/
def SumTail.tree (left : Expr) : SumTail → Expr
  | .nil => left
  | .cons op _ operand rest => rest.tree (.binary op left operand.tree)

def Term.tree : Term → Expr
  | .chain first rest => rest.tree first.tree

def ProductTail.tree (left : Expr) : ProductTail → Expr
  | .nil => left
  | .cons op _ operand rest => rest.tree (.binary op left operand.tree)

def Factor.tree : Factor → Expr
  | .plus operand => operand.tree
  | .minus operand => .neg operand.tree
  | .primary p => p.tree
  | .power base exponent => .binary .power base.tree exponent.tree

def Primary.tree : Primary → Expr
  | .number digits => .num (numberValue digits)
  | .name text => .var text
  | .call text arguments => .call text arguments.trees
  | .group inner => .group inner.tree

def Arguments.trees : Arguments → List Expr
  | .empty => []
  | .list first rest => first.tree :: rest.trees

def ArgumentTail.trees : ArgumentTail → List Expr
  | .nil => []
  | .cons argument rest => argument.tree :: rest.trees

end

/-! ### Levels

Inside a factor one level more is taken than around it.  In a chain each operator takes a level
from where it stands to the end of the chain, so that the operand behind the operator number `n`
is read `n` levels deeper than the chain.  The operators of the first term of a sum belong to the
chain of the sum.  Those of a later term do not: that term is a chain of its own. -/

/-- The levels a chain takes behind its first operand, when so many operators have come before and
the operands that follow take levels of their own as given. -/
def chainLevels (before : Nat) : List Nat → Nat
  | [] => 0
  | operand :: rest => max (before + 1 + operand) (chainLevels (before + 1) rest)

mutual

/-- **The levels that are taken** while an expression is read: the count that is reached, from
zero. -/
def Expression.levels : Expression → Nat
  | .chain (.chain first products) sums =>
    max first.levels (chainLevels 0 (products.operandLevels ++ sums.operandLevels))

/-- The levels of the operands, each by itself. -/
def SumTail.operandLevels : SumTail → List Nat
  | .nil => []
  | .cons _ _ operand rest => operand.levels :: rest.operandLevels

def Term.levels : Term → Nat
  | .chain first rest => max first.levels (chainLevels 0 rest.operandLevels)

def ProductTail.operandLevels : ProductTail → List Nat
  | .nil => []
  | .cons _ _ operand rest => operand.levels :: rest.operandLevels

def Factor.levels : Factor → Nat
  | .plus operand => operand.levels + 1
  | .minus operand => operand.levels + 1
  | .primary p => p.levels + 1
  | .power base exponent => max base.levels exponent.levels + 1

def Primary.levels : Primary → Nat
  | .number _ => 0
  | .name _ => 0
  | .call _ arguments => arguments.levels
  | .group inner => inner.levels

def Arguments.levels : Arguments → Nat
  | .empty => 0
  | .list first rest => max first.levels rest.levels

def ArgumentTail.levels : ArgumentTail → Nat
  | .nil => 0
  | .cons argument rest => max argument.levels rest.levels

end

section

variable {before n k : Nat} {ns ns' : List Nat}

/-- One level more for everything, and one operator more before a chain. -/
theorem chainLevels_succ_le_iff :
    chainLevels (before + 1) ns ≤ n + 1 ↔ chainLevels before ns ≤ n := by
  induction ns generalizing before with
  | nil => exact iff_of_true (Nat.zero_le _) (Nat.zero_le _)
  | cons operand ns ih =>
    rw [chainLevels, chainLevels, Nat.max_le, Nat.max_le, ih]
    omega

theorem chainLevels_add_le_iff : chainLevels k ns ≤ n + k ↔ chainLevels 0 ns ≤ n := by
  induction k with
  | zero => rfl
  | succ k ih => rw [← Nat.add_assoc, chainLevels_succ_le_iff, ih]

/-- An operator takes a level from its operand and from what is left of its chain. -/
theorem chainLevels_cons_le_iff :
    chainLevels 0 (k :: ns) ≤ n + 1 ↔ k ≤ n ∧ chainLevels 0 ns ≤ n := by
  rw [chainLevels, Nat.max_le, chainLevels_succ_le_iff]
  omega

theorem chainLevels_append :
    chainLevels before (ns ++ ns') =
      max (chainLevels before ns) (chainLevels (before + ns.length) ns') := by
  induction ns generalizing before with
  | nil => exact (Nat.zero_max _).symm
  | cons operand ns ih =>
    have hlength : before + (ns.length + 1) = before + 1 + ns.length := by omega
    rw [List.cons_append, chainLevels, chainLevels, ih, Nat.max_assoc, List.length_cons, hlength]

/-- What is left of a chain has the levels that its first operators leave. -/
theorem chainLevels_append_le_iff :
    chainLevels 0 (ns ++ ns') ≤ n + ns.length ↔
      chainLevels 0 ns ≤ n + ns.length ∧ chainLevels 0 ns' ≤ n := by
  rw [chainLevels_append, Nat.max_le, Nat.zero_add, chainLevels_add_le_iff]

/-- Every operator of a chain needs a level. -/
theorem length_le_of_chainLevels_le (h : chainLevels 0 ns ≤ n) : ns.length ≤ n := by
  induction ns generalizing n with
  | nil => exact Nat.zero_le n
  | cons operand ns ih =>
    obtain _ | n := n
    · rw [chainLevels] at h
      omega
    · exact Nat.succ_le_succ (ih (chainLevels_cons_le_iff.mp h).2)

end

end Abacus.Grammar
