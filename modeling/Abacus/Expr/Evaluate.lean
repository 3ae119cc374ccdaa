import Abacus.Environment
import Abacus.Expr

/-!
# Evaluating expressions

The value of an expression in an environment, computed on its tree: operands from left to right,
arguments before the function is looked up.  The first error met is the answer.
-/

namespace Abacus.Expr

mutual

/-- **The value of an expression** in an environment. -/
def evaluate (env : Environment) : Expr → Run RuntimeError Float
  | num value => pure value
  | var name =>
    match env.value? name with
    | some value => pure value
    | none => throw (.here (.undefinedVariable name))
  | group inner => evaluate env inner
  | neg operand => do
    let value ← evaluate env operand
    pure (-value)
  | trailingNeg _ => throw (.here (.unsupportedOperator "postfix -"))
  | binary op left right => do
    let x ← evaluate env left
    let y ← evaluate env right
    Run.answer (op.apply x y)
  | call name arguments => do
    let values ← evaluateAll env arguments
    match env.function? name with
    | some f => Run.mapError FunctionError.toRuntime (f values)
    | none => throw (.here (.undefinedFunction name))

/-- The values of arguments, from left to right. -/
def evaluateAll (env : Environment) : List Expr → Run RuntimeError (List Float)
  | [] => pure []
  | argument :: rest => do
    let value ← evaluate env argument
    let values ← evaluateAll env rest
    pure (value :: values)

end

end Abacus.Expr
