import Abacus.Span

/-!
# Errors

What can go wrong with a line, by cause: it cannot be read (`ParseError`), it cannot be turned
into instructions (`CompileError`), its evaluation fails (`RuntimeError`), or it is no definition
(`DefinitionError`).  A function that is called may refuse the call (`CallFault`) or fail while it
runs; an error that leaves a function is wrapped once for each call it leaves.

Each type has one function `message` with the wording.
-/

namespace Abacus

/-- Why a text is not an expression. -/
inductive ParseError where
  /-- Something else was expected at a token. -/
  | unexpected (expected found : String) (span : Span)
  /-- A complete expression is followed by a token. -/
  | trailing (found : String) (span : Span)
  /-- The digits of a number token spell no number. -/
  | invalidNumber (digits : String) (span : Span)
  /-- The expression needs more levels than there are. -/
  | tooDeep (limit : Nat) (span : Span)
deriving DecidableEq, Repr

namespace ParseError

/-- Where the error was found. -/
def span : ParseError → Span
  | unexpected _ _ span | trailing _ span | invalidNumber _ span | tooDeep _ span => span

/-- The error in words. -/
def message : ParseError → String
  | unexpected expected found span =>
    "Unexpected " ++ found ++ ", expected " ++ expected ++ " at " ++ span.describe
  | trailing found span =>
    "Unexpected " ++ found ++ " after end of expression at " ++ span.describe
  | invalidNumber digits span => "Invalid number '" ++ digits ++ "' at " ++ span.describe
  | tooDeep limit span =>
    "Expression nests deeper than " ++ toString limit ++ " levels at " ++ span.describe

end ParseError

/-- Why an expression has no instructions. -/
inductive CompileError where
  /-- No instruction does what an operator behind its operand asks for. -/
  | trailingOperator (operator : String)
deriving DecidableEq, Repr

/-- The error in words. -/
def CompileError.message : CompileError → String
  | trailingOperator operator => "Unsupported postfix operator '" ++ operator ++ "'"

/-- Why a function refuses to be called. -/
inductive CallFault where
  /-- The number of arguments is not the number of parameters. -/
  | arity (name : String) (expected got : Nat)
  /-- The definitions the function relies on are gone. -/
  | outOfScope (name : String)
  /-- A reason of the function's own. -/
  | message (text : String)
deriving DecidableEq, Repr

/-- The refusal in words. -/
def CallFault.describe : CallFault → String
  | arity name expected got =>
    name ++ "() requires " ++ toString expected ++ " argument" ++
      (if expected = 1 then "" else "s") ++ ", got " ++ toString got
  | outOfScope name => name ++ "() can no longer be called: its defining scope is gone"
  | message text => text

/-- What an evaluation stumbles over. -/
inductive RuntimeCause where
  | divisionByZero
  | undefinedVariable (name : String)
  | undefinedFunction (name : String)
  /-- An instruction takes more values than the stack holds. -/
  | stackUnderflow (operation : String) (needed available : Nat)
  /-- The instructions and their tables do not fit together. -/
  | invalidProgram (reason : String)
  | unsupportedOperator (operator : String)
  /-- A function refused its call. -/
  | call (fault : CallFault)
deriving DecidableEq, Repr

/-- The cause in words. -/
def RuntimeCause.message : RuntimeCause → String
  | divisionByZero => "Division by zero"
  | undefinedVariable name => "Undefined variable '" ++ name ++ "'"
  | undefinedFunction name => "Undefined function '" ++ name ++ "'"
  | stackUnderflow operation needed available =>
    "Stack underflow: " ++ operation ++ " needs " ++ toString needed ++ " value(s), found " ++
      toString available
  | invalidProgram reason => "Invalid program: " ++ reason
  | unsupportedOperator operator => "Unsupported operator '" ++ operator ++ "'"
  | call fault => fault.describe

/-- **Why an evaluation fails**: a cause, and how many calls of functions it has left since. -/
structure RuntimeError where
  cause : RuntimeCause
  calls : Nat
deriving DecidableEq, Repr

namespace RuntimeError

/-- A cause in the evaluation at hand, outside of any call. -/
def here (cause : RuntimeCause) : RuntimeError := ⟨cause, 0⟩

/-- The error after it has left one call more. -/
def outOfCall (e : RuntimeError) : RuntimeError := ⟨e.cause, e.calls + 1⟩

/-- The error in words, which do not depend on the calls it has left. -/
def message (e : RuntimeError) : String := e.cause.message

@[simp] theorem message_outOfCall (e : RuntimeError) : e.outOfCall.message = e.message := rfl

end RuntimeError

/-- What a called function answers instead of a value. -/
inductive FunctionError where
  /-- It refuses the call. -/
  | fault (fault : CallFault)
  /-- Its body failed. -/
  | runtime (cause : RuntimeError)
deriving DecidableEq, Repr

namespace FunctionError

/-- The error in words. -/
def message : FunctionError → String
  | fault f => f.describe
  | runtime cause => cause.message

/-- The error as the caller's evaluation sees it. -/
def toRuntime : FunctionError → RuntimeError
  | fault f => .here (.call f)
  | runtime cause => cause.outOfCall

end FunctionError

/-- Why a line is not a definition. -/
inductive DefinitionError where
  | multipleAssignment
  /-- What stands before the equals sign can not be defined. -/
  | invalidTarget (text : String)
  /-- A parameter is not a name, or is one a second time. -/
  | invalidParameter (text : String)
deriving DecidableEq, Repr

/-- The error in words. -/
def DefinitionError.message : DefinitionError → String
  | multipleAssignment => "Multiple assignment is not supported"
  | invalidTarget text => "Cannot assign to '" ++ text ++ "'"
  | invalidParameter text => "Function parameters must be plain names, got '" ++ text ++ "'"

/-- Why a line fails, with the stage it fails in. -/
inductive Failure where
  | parse (cause : ParseError)
  | compile (cause : CompileError)
  | runtime (cause : RuntimeError)
  | definition (cause : DefinitionError)
  /-- The input itself could not be read. -/
  | input (text : String)
deriving DecidableEq, Repr

/-- The failure in words, led by its stage. -/
def Failure.message : Failure → String
  | parse cause => "Parser error: " ++ cause.message
  | compile cause => "Compile error: " ++ cause.message
  | runtime cause => "Runtime error: " ++ cause.message
  | definition cause => "Definition error: " ++ cause.message
  | input text => "IO error: " ++ text

end Abacus
