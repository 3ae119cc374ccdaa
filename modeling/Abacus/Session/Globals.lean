import Abacus.Builtins
import Abacus.Formula

/-!
# Definitions of a session

What the user has defined: variables with their values, and functions with their parameters and
bodies.  A body is evaluated where the function is called, in an environment that binds the
parameters over the definitions as they then are.  So a function sees later definitions of the
names in its body, its own name included.

A call in progress counts as a level, and only `maxCallDepth` levels are available.  The callables
that have `n + 1` levels are built from those that have `n`, and this is what the recursion is on.

## Main definitions

* `UserFunction`, `Globals`;
* `UserFunction.callWithin`: a call with a number of levels left;
* `UserFunction.call`: a call on a machine, which says how many are in progress;
* `Globals.environment`: what names stand for in a session.
-/

namespace Abacus

/-- Calls of user functions that may be in progress at once. -/
def maxCallDepth : Nat := 200

/-- A function a user has defined. -/
structure UserFunction where
  name : String
  parameters : List String
  body : Formula

/-- What a user has defined. -/
structure Globals where
  values : Bindings Float
  functions : Bindings UserFunction

namespace Globals

/-- Nothing is defined. -/
def empty : Globals := ⟨.empty, .empty⟩

/-- What names stand for, given how user functions are called: what the user has defined, else the
built-in names. -/
def environmentWith (call : UserFunction → Callable) (g : Globals) : Environment where
  value? name := (g.values.find? name).or (Environment.builtins.value? name)
  function? name :=
    ((g.functions.find? name).map call).or (Environment.builtins.function? name)

end Globals

namespace UserFunction

/-- How a definition of the function begins. -/
def signature (f : UserFunction) : String :=
  f.name ++ "(" ++ ", ".intercalate f.parameters ++ ")"

/-- Refuses the call. -/
def refuse (fault : CallFault) : Run FunctionError Float := .answer (.error (.fault fault))

/-- Refuses a call with a wrong number of arguments, and else goes on. -/
def checked (f : UserFunction) (args : List Float) (call : Run FunctionError Float) :
    Run FunctionError Float :=
  if args.length = f.parameters.length then call
  else refuse (.arity f.name f.parameters.length args.length)

/-- The refusal for want of levels. -/
def tooDeep (f : UserFunction) : CallFault :=
  .message (f.name ++ "(): maximum call depth of " ++ toString maxCallDepth ++ " exceeded")

/-- The value of the body with the parameters bound over an environment. -/
def evaluateBody (f : UserFunction) (env : Environment) (args : List Float) :
    Run FunctionError Float :=
  Run.mapError FunctionError.runtime
    (Run.inCall (f.body.evaluate (env.bind (.ofList (f.parameters.zip args)))))

/-- A call with a number of levels left.  The functions the body calls have one less. -/
def callWithin (g : Globals) : Nat → UserFunction → Callable
  | 0, f => fun args => f.checked args (refuse f.tooDeep)
  | levels + 1, f => fun args =>
    f.checked args (f.evaluateBody (g.environmentWith (callWithin g levels)) args)

/-- **A call of a user function**, given the definitions as they are, if there are any left. -/
def call (g : Option Globals) (f : UserFunction) : Callable := fun args =>
  match g with
  | none => f.checked args (refuse (.outOfScope f.name))
  | some g => fun machine => callWithin g (maxCallDepth - machine.callDepth) f args machine

end UserFunction

namespace Globals

/-- **What names stand for** at the top level of a session. -/
def environment (g : Globals) : Environment :=
  g.environmentWith (UserFunction.call (some g))

end Globals

end Abacus
