import Abacus.Session.Globals
import Abacus.Settings

/-!
# Sessions

A session takes one line of text after another.  A line with an equals sign defines what stands
before the sign, any other is evaluated.  Definitions last until they are replaced or cleared; a
line that fails leaves them alone.

## Main definitions

* `Session`, `Outcome`;
* `Definition`, `Definition.read`: what a defining line means;
* `Session.execute`: a line;
* `KnownFunction`: a function taken out of a session, to be called later.
-/

namespace Abacus

/-- What a defining line means. -/
inductive Definition where
  | ofVariable (name : String) (value : Float)
  | ofFunction (f : UserFunction)

/-- The names of parameters: each is a plain name, and none stands there twice. -/
def parameterNames (seen : List String) : List Expr → Except DefinitionError (List String)
  | [] => .ok []
  | .var name :: rest =>
    if seen.contains name then .error (.invalidParameter name)
    else (parameterNames (name :: seen) rest).map (name :: ·)
  | e :: _ => .error (.invalidParameter e.print)

namespace Definition

/-- What is to be defined, in the words of its line. -/
def signature : Definition → String
  | ofVariable name _ => name
  | ofFunction f => f.signature

/-- What is reported about a definition. -/
def event : Definition → Event
  | ofVariable name value => .variableDefined name value
  | ofFunction f => .functionDefined f.signature

/-- The definitions with one more, in place of an earlier one of the same name. -/
def addTo (g : Globals) : Definition → Globals
  | ofVariable name value => { g with values := g.values.insert name value }
  | ofFunction f => { g with functions := g.functions.insert f.name f }

/-- What a body defines under a target: a name stands for the value of the body now, a call makes
a function of it. -/
def ofTarget (strategy : Strategy) (g : Globals) (target body : Expr) : Run Failure Definition :=
  match target with
  | .var name => do
    let formula ← Run.mapError Failure.compile (Formula.ofExpr strategy body)
    let value ← Run.mapError Failure.runtime (formula.evaluate g.environment)
    pure (ofVariable name value)
  | .call name arguments => do
    let parameters ← Run.answer ((parameterNames [] arguments).mapError Failure.definition)
    let formula ← Run.mapError Failure.compile (Formula.ofExpr strategy body)
    pure (ofFunction ⟨name, parameters, formula⟩)
  | other => throw (.definition (.invalidTarget other.print))

/-- **What a line defines.**  It is cut at its only equals sign; the target is read first, then
the body. -/
def read (strategy : Strategy) (g : Globals) (line : String) : Run Failure Definition :=
  match Text.cutAt? '=' line.toList with
  | none => throw (.definition (.invalidTarget (Text.trim line)))
  | some (target, body) =>
    if body.contains '=' then throw (.definition .multipleAssignment)
    else do
      let target ← Run.mapError Failure.parse (readExpr (String.ofList target))
      let body ← Run.mapError Failure.parse (readExpr (String.ofList body))
      ofTarget strategy g target body

end Definition

/-- What is known between lines. -/
structure Session where
  strategy : Strategy
  globals : Globals
  machine : Machine

/-- What a line leads to. -/
inductive Outcome where
  | value (x : Float)
  /-- Something was defined; the text is the beginning of its definition. -/
  | defined (signature : String)
deriving DecidableEq

/-- A line defines something. -/
def isDefinition (line : String) : Bool := line.toList.contains '='

namespace Session

/-- A session in which nothing is defined yet. -/
def new (strategy : Strategy) (settings : Settings) (threshold : Threshold) : Session :=
  ⟨strategy, .empty, .ofSettings settings threshold⟩

/-- Carries out a computation on the session's machine. -/
def perform {ε α : Type} (x : Run ε α) (s : Session) : Except ε α × Session :=
  let (result, machine) := StateT.run (ExceptT.run x) s.machine
  (result, { s with machine })

/-- The value of a line. -/
def evaluate (line : String) (s : Session) : Except Failure Float × Session :=
  s.perform (calculate s.strategy s.globals.environment line)

/-- The program of a line, which is not evaluated. -/
def compile (line : String) (s : Session) : Except Failure Program × Session :=
  s.perform (compileText line)

/-- Defines what a line says, and answers the beginning of the definition. -/
def define (line : String) (s : Session) : Except Failure String × Session :=
  match s.perform (Definition.read s.strategy s.globals line) with
  | (.error e, s) => (.error e, s)
  | (.ok definition, s) =>
    (.ok definition.signature,
      { s with
        globals := definition.addTo s.globals
        machine := s.machine.report definition.event })

/-- **A line**: a definition if it has an equals sign, else an expression to evaluate. -/
def execute (line : String) (s : Session) : Except Failure Outcome × Session :=
  if isDefinition line then
    let (result, s) := s.define line
    (result.map Outcome.defined, s)
  else
    let (result, s) := s.evaluate line
    (result.map Outcome.value, s)

/-- Forgets all definitions. -/
def clear (s : Session) : Session := { s with globals := .empty }

/-- The names of the defined variables, in order. -/
def variableNames (s : Session) : List String := s.globals.values.names

/-- The names of the defined functions, in order. -/
def functionNames (s : Session) : List String := s.globals.functions.names

/-- The value of a variable, defined or built in. -/
def value? (s : Session) (name : String) : Option Float := s.globals.environment.value? name

/-- The events reported since the last time, and the session without them. -/
def takeEvents (s : Session) : List Event × Session :=
  (s.machine.log.events, { s with machine := s.machine.flushed })

end Session

/-- A function taken out of a session.  A user function stays what it was, but the names in its
body are looked up in the definitions as they are when it is called. -/
inductive KnownFunction where
  | builtin (f : BuiltinFunction)
  | user (f : UserFunction)

namespace KnownFunction

/-- A call, given the definitions as they are, if there are any left. -/
def call (g : Option Globals) : KnownFunction → Callable
  | builtin f => f.callable
  | user f => f.call g

end KnownFunction

namespace Session

/-- The function a name stands for, defined or built in. -/
def function? (s : Session) (name : String) : Option KnownFunction :=
  ((s.globals.functions.find? name).map .user).or
    ((BuiltinFunction.ofName? name).map .builtin)

/-- Calls a function on the session's machine and definitions. -/
def invoke (f : KnownFunction) (args : List Float) (s : Session) :
    Except FunctionError Float × Session :=
  s.perform (f.call (some s.globals) args)

end Session

end Abacus
