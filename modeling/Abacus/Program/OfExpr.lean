import Abacus.Expr
import Abacus.Program

/-!
# Compiling expressions

The instructions of an expression come in the order in which a tree is evaluated: operands from
left to right, then what joins them.  Parentheses leave no trace.

The call site of a call is recorded before those of its arguments, although the call itself is
carried out after them.  So the table of calls lists an outer call before the calls inside it.
-/

namespace Abacus.Program

mutual

/-- **The program of an expression.**  There is none if a minus sign stands behind its operand
somewhere in it. -/
def ofExpr : Expr → Except CompileError Program
  | .num value => pure ⟨[.num], ⟨[value], [], []⟩⟩
  | .var name => pure ⟨[.var], ⟨[], [name], []⟩⟩
  | .group inner => ofExpr inner
  | .neg operand => do
    let p ← ofExpr operand
    pure (p ++ single .neg)
  | .trailingNeg _ => .error (.trailingOperator "-")
  | .binary op left right => do
    let p ← ofExpr left
    let q ← ofExpr right
    pure (p ++ q ++ single (.operator op))
  | .call name arguments => do
    let p ← ofArguments arguments
    pure (⟨[], ⟨[], [], [⟨name, arguments.length⟩]⟩⟩ ++ p ++ single .call)

/-- The programs of arguments, one after another. -/
def ofArguments : List Expr → Except CompileError Program
  | [] => pure ⟨[], .empty⟩
  | argument :: rest => do
    let p ← ofExpr argument
    let q ← ofArguments rest
    pure (p ++ q)

end

end Abacus.Program
