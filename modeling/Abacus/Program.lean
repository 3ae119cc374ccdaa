import Abacus.Operator

/-!
# Programs

A program for the stack machine is a list of instructions and three tables.  An instruction has
no operand of its own: one that needs a number, a variable or a call site takes the next entry of
the table for it.

## Main definitions

* `Instruction`, `CallSite`, `Tables`, `Program`;
* `Program.append`: one program after another, instructions and tables alike.
-/

namespace Abacus

/-- What the stack machine can be told to do. -/
inductive Instruction where
  /-- Push the next number. -/
  | num
  /-- Push the value of the next variable. -/
  | var
  /-- Replace the two topmost values by what the operator computes from them. -/
  | operator (op : BinaryOp)
  /-- Negate the topmost value. -/
  | neg
  /-- Replace the arguments on top of the stack by what the next function answers. -/
  | call
deriving DecidableEq, Repr

namespace Instruction

/-- The name of an instruction in listings and errors. -/
def name : Instruction → String
  | num => "NUM"
  | var => "VAR"
  | operator .add => "ADD"
  | operator .subtract => "SUB"
  | operator .multiply => "MULT"
  | operator .divide => "DIV"
  | operator .modulo => "MOD"
  | operator .power => "EXP"
  | neg => "NEG"
  | call => "FUNC"

/-- All instructions, by their codes, which count from one. -/
def all : List Instruction :=
  [num, var, operator .add, operator .subtract, operator .multiply, operator .divide,
    operator .modulo, operator .power, neg, call]

/-- The code of an instruction. -/
def code (i : Instruction) : Nat := all.idxOf i + 1

/-- The instruction with a name. -/
def ofName? (s : String) : Option Instruction := all.find? (·.name == s)

/-- The operator an instruction computes, if it is one of the six. -/
def operator? : Instruction → Option BinaryOp
  | operator op => some op
  | _ => none

theorem ofName?_name (i : Instruction) : ofName? i.name = some i := by
  rcases i with _ | _ | op | _ | _ <;> try cases op
  all_goals decide

theorem mem_all (i : Instruction) : i ∈ all := by
  rcases i with _ | _ | op | _ | _ <;> try cases op
  all_goals decide

end Instruction

/-- A call: the function's name and the number of arguments it is called with. -/
structure CallSite where
  name : String
  arguments : Nat
deriving DecidableEq, Repr

/-- The operands of a program, each kind in the order in which it is used. -/
structure Tables where
  values : List Float
  names : List String
  calls : List CallSite
deriving DecidableEq

namespace Tables

/-- No operands. -/
def empty : Tables := ⟨[], [], []⟩

/-- The operands of one program and then those of another. -/
def append (a b : Tables) : Tables :=
  ⟨a.values ++ b.values, a.names ++ b.names, a.calls ++ b.calls⟩

instance : Append Tables := ⟨append⟩

@[simp] theorem append_def (a b : Tables) :
    a ++ b = ⟨a.values ++ b.values, a.names ++ b.names, a.calls ++ b.calls⟩ := rfl

end Tables

/-- Instructions and their operands. -/
structure Program where
  instructions : List Instruction
  tables : Tables
deriving DecidableEq

namespace Program

/-- One program after another. -/
def append (p q : Program) : Program := ⟨p.instructions ++ q.instructions, p.tables ++ q.tables⟩

instance : Append Program := ⟨append⟩

@[simp] theorem append_def (p q : Program) :
    p ++ q = ⟨p.instructions ++ q.instructions, p.tables ++ q.tables⟩ := rfl

/-- A single instruction, without operand. -/
def single (i : Instruction) : Program := ⟨[i], .empty⟩

/-- The number of instructions. -/
def size (p : Program) : Nat := p.instructions.length

/-- There is nothing to do. -/
def isEmpty (p : Program) : Bool := p.instructions.isEmpty

end Program

end Abacus
