import Abacus.Bindings
import Abacus.Machine
import Abacus.Text.Quoted

/-!
# Environments

What the names in an expression stand for.  Variables stand for values and functions for
callables, and the two do not get in each other's way: a name may stand for both.

A scope holds bindings of its own and falls back to a parent for other names.

## Main definitions

* `Callable`, `Environment`;
* `Environment.bind`: an environment with some variables bound anew;
* `Scope`, `Scope.environment`.
-/

namespace Abacus

/-- A function as an expression calls it: arguments in the order written, and an answer that may
leave traces on the machine. -/
abbrev Callable := List Float → Run FunctionError Float

namespace Callable

/-- A callable that leaves the machine alone. -/
def ofFunction (f : List Float → Except FunctionError Float) : Callable := fun args =>
  .answer (f args)

/-- A callable that refuses any other number of arguments than the given one. -/
def withArity (name : String) (arity : Nat) (f : Callable) : Callable := fun args =>
  if args.length = arity then f args
  else .answer (.error (.fault (.arity name arity args.length)))

end Callable

/-- **What names stand for** in an expression. -/
structure Environment where
  value? : String → Option Float
  function? : String → Option Callable

namespace Environment

/-- No name stands for anything. -/
def empty : Environment := ⟨fun _ => none, fun _ => none⟩

/-- The same environment but for variables, of which some stand for new values. -/
def bind (e : Environment) (values : Bindings Float) : Environment :=
  { e with value? := fun name => (values.find? name).or (e.value? name) }

@[simp] theorem function?_bind (e : Environment) (values : Bindings Float) :
    (e.bind values).function? = e.function? := rfl

end Environment

/-- Bindings of its own over those of a parent, if there is one. -/
structure Scope where
  values : Bindings Float
  functions : Bindings Callable
  parent : Option Environment

namespace Scope

/-- A scope that binds nothing itself. -/
def inside (parent : Option Environment) : Scope := ⟨.empty, .empty, parent⟩

/-- Binds a variable. -/
def setVariable (name : String) (value : Float) (s : Scope) : Scope :=
  { s with values := s.values.insert name value }

/-- Binds a function. -/
def setFunction (name : String) (f : Callable) (s : Scope) : Scope :=
  { s with functions := s.functions.insert name f }

/-- Forgets the scope's own bindings. -/
def clear (s : Scope) : Scope := inside s.parent

/-- The scope binds nothing itself. -/
def isEmpty (s : Scope) : Bool := s.values.isEmpty && s.functions.isEmpty

/-- **What names stand for in a scope**: what it binds them to itself, else what they stand for in
the parent. -/
def environment (s : Scope) : Environment where
  value? name := (s.values.find? name).or (s.parent.bind fun p => p.value? name)
  function? name := (s.functions.find? name).or (s.parent.bind fun p => p.function? name)

/-- A scope on one line, for diagnostics. -/
def describe (s : Scope) : String :=
  let shown (entry : String × Float) :=
    Text.quoted entry.1 ++ ": " ++ Decimal.diagnostic entry.2
  "Scope \x7b vars: \x7b" ++ ", ".intercalate (s.values.entries.map shown) ++
    "\x7d, funcs: " ++ bracketed (s.functions.names.map Text.quoted) ++
    ", has_parent: " ++ (if s.parent.isSome then "true" else "false") ++ " \x7d"

end Scope

end Abacus
