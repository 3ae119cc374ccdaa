import Abacus.Environment

/-!
# Built-in names

The names every environment but the empty ones starts from: the constants `E` and `Pi`, and the
functions `sin` and `cos` of one argument.
-/

namespace Abacus

/-- The built-in constants, in order of their names. -/
def builtinConstants : List (String × Float) :=
  [("E", 2.718281828459045), ("Pi", 3.141592653589793)]

/-- A function every session starts with. -/
inductive BuiltinFunction where
  | cos | sin
deriving DecidableEq, Repr

namespace BuiltinFunction

/-- The name of a built-in function. -/
def name : BuiltinFunction → String
  | cos => "cos"
  | sin => "sin"

/-- The number of its arguments. -/
def arity : BuiltinFunction → Nat
  | cos | sin => 1

/-- What it computes. -/
def compute : BuiltinFunction → Float → Float
  | cos, x => x.cos
  | sin, x => x.sin

/-- All built-in functions, in order of their names. -/
def all : List BuiltinFunction := [cos, sin]

/-- The built-in function with a name. -/
def ofName? (name : String) : Option BuiltinFunction := all.find? (·.name == name)

/-- A call of a built-in function. -/
def call (f : BuiltinFunction) : List Float → Except FunctionError Float
  | [x] => .ok (f.compute x)
  | args => .error (.fault (.arity f.name f.arity args.length))

/-- The function as a callable. -/
def callable (f : BuiltinFunction) : Callable := .ofFunction f.call

end BuiltinFunction

/-- The value of a built-in constant. -/
def builtinConstant? (name : String) : Option Float := Bindings.lookUp name builtinConstants

/-- **The built-in names.** -/
def Environment.builtins : Environment where
  value? := builtinConstant?
  function? name := (BuiltinFunction.ofName? name).map BuiltinFunction.callable

end Abacus
