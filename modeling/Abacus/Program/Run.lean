import Abacus.Environment
import Abacus.Program

/-!
# Running programs

The stack machine.  A run borrows a stack, carries out the instructions in order, and answers the
one value that is then left.  It fails at the first instruction that finds its table used up, too
few values on the stack, a name that stands for nothing, or a function that fails.  However it
ends, the stack is given back.

## Main definitions

* `Frame`: what a run works on, its stack and what is left of the tables;
* `step`, `exec`: one instruction, and all of them;
* `Program.run`: a run.
-/

namespace Abacus

/-- What a run works on. -/
structure Frame where
  stack : Stack
  /-- The operands not used yet. -/
  tables : Tables

/-- A part of a run: it works on a frame and on the machine. -/
abbrev Exec (α : Type) := ExceptT RuntimeError (StateT Frame (StateM Machine)) α

namespace Exec

/-- Fails here. -/
def fail {α : Type} (cause : RuntimeCause) : Exec α := throw (.here cause)

/-- Fails at an instruction whose table is used up. -/
def exhausted {α : Type} (table : String) (i : Instruction) : Exec α :=
  fail (.invalidProgram (i.name ++ " has no entry left in " ++ table))

/-- Fails at an instruction that needs more values than there are. -/
def underflow {α : Type} (i : Instruction) (needed : Nat) (stack : Stack) : Exec α :=
  fail (.stackUnderflow i.name needed stack.length)

/-- Calls a function; its errors become errors of the run. -/
def invoke (f : Callable) (args : List Float) : Exec Float := fun frame machine =>
  let (result, machine) := Run.mapError FunctionError.toRuntime (f args) machine
  ((result, frame), machine)

end Exec

open Exec

/-- **One instruction.** -/
def step (env : Environment) (i : Instruction) : Exec Unit := do
  let frame ← get
  match i with
  | .num =>
    match frame.tables.values with
    | [] => exhausted "values" i
    | value :: values =>
      set (Frame.mk (value :: frame.stack) { frame.tables with values })
  | .var =>
    match frame.tables.names with
    | [] => exhausted "vars" i
    | name :: names =>
      match env.value? name with
      | none => fail (.undefinedVariable name)
      | some value => set (Frame.mk (value :: frame.stack) { frame.tables with names })
  | .operator op =>
    match frame.stack with
    | y :: x :: stack =>
      match op.apply x y with
      | .ok value => set { frame with stack := value :: stack }
      | .error e => throw e
    | stack => underflow i 2 stack
  | .neg =>
    match frame.stack with
    | x :: stack => set { frame with stack := -x :: stack }
    | stack => underflow i 1 stack
  | .call =>
    match frame.tables.calls with
    | [] => exhausted "funcs" i
    | site :: calls =>
      match env.function? site.name with
      | none => fail (.undefinedFunction site.name)
      | some f =>
        if frame.stack.length < site.arguments then underflow i site.arguments frame.stack
        else do
          let value ← invoke f (frame.stack.take site.arguments).reverse
          set (Frame.mk (value :: frame.stack.drop site.arguments) { frame.tables with calls })

/-- All instructions, in order. -/
def exec (env : Environment) : List Instruction → Exec Unit
  | [] => pure ()
  | i :: rest => do
    step env i
    exec env rest

/-- The value a run leaves, which must be the only one on the stack. -/
def Frame.result (frame : Frame) : Except RuntimeError Float :=
  match frame.stack with
  | [value] => .ok value
  | stack =>
    .error (.here (.invalidProgram
      ("expected one value on the stack after execution, found " ++ toString stack.length)))

/-- **A run of a program** in an environment. -/
def Program.run (p : Program) (env : Environment) : Run RuntimeError Float := fun machine =>
  let borrowed := machine.borrowStack
  let ((executed, frame), machine) := exec env p.instructions ⟨borrowed.1, p.tables⟩ borrowed.2
  let result := executed.bind fun _ => frame.result
  let machine :=
    match result with
    | .ok value => machine.report (.finished value)
    | .error _ => machine
  (result, machine.returnStack frame.stack)

end Abacus
