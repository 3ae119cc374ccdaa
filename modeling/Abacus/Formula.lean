import Abacus.Expr.Evaluate
import Abacus.Expr.Parse
import Abacus.Program.OfExpr
import Abacus.Program.Run

/-!
# Formulas

An expression made ready for evaluation: kept as a tree, or compiled for the stack machine.
Reading and compiling are reported to the log here.

## Main definitions

* `Strategy`: the two ways of evaluating;
* `Formula`, `Formula.ofExpr`, `Formula.evaluate`;
* `calculate`: the value of a text.
-/

namespace Abacus

/-- How expressions are evaluated. -/
inductive Strategy where
  /-- Compiled, and run on the stack machine. -/
  | stackMachine
  /-- On the tree itself. -/
  | tree
deriving DecidableEq, Repr

/-- Reads an expression and reports it. -/
def readExpr (text : String) : Run ParseError Expr := do
  let e ← Run.answer (parse text)
  Run.report (.parsed e)
  pure e

/-- Compiles an expression and reports the program. -/
def compileExpr (e : Expr) : Run CompileError Program := do
  let p ← Run.answer (Program.ofExpr e)
  Run.report (.compiled p)
  Run.report (.dumped p)
  pure p

/-- Reads an expression and compiles it. -/
def compileText (text : String) : Run Failure Program := do
  let e ← Run.mapError Failure.parse (readExpr text)
  Run.mapError Failure.compile (compileExpr e)

/-- An expression ready for evaluation. -/
inductive Formula where
  | tree (e : Expr)
  | compiled (p : Program)

namespace Formula

/-- Makes an expression ready for a way of evaluating. -/
def ofExpr (strategy : Strategy) (e : Expr) : Run CompileError Formula :=
  match strategy with
  | .tree => pure (tree e)
  | .stackMachine => do
    let p ← compileExpr e
    pure (compiled p)

/-- **The value of a formula** in an environment. -/
def evaluate (env : Environment) : Formula → Run RuntimeError Float
  | tree e => e.evaluate env
  | compiled p => p.run env

end Formula

/-- **The value of a text** in an environment. -/
def calculate (strategy : Strategy) (env : Environment) (text : String) : Run Failure Float := do
  let e ← Run.mapError Failure.parse (readExpr text)
  let formula ← Run.mapError Failure.compile (Formula.ofExpr strategy e)
  Run.mapError Failure.runtime (formula.evaluate env)

end Abacus
