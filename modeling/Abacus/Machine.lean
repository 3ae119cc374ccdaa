import Abacus.Log.Event
import Abacus.StackPool

/-!
# The machine

What evaluations share and leave changed: the pool of stacks, the number of calls of user
functions in progress, and the log.  A `Run` is a computation on the machine that answers a value
or an error; the machine's changes stay in either case.

## Main definitions

* `Machine`, `Run`;
* `Machine.borrowStack`, `Machine.returnStack`: the pool's operations, reported to the log;
* `Run.inCall`: a computation counted as a call in progress.
-/

namespace Abacus

/-- What evaluations share. -/
structure Machine where
  pool : StackPool
  /-- Calls of user functions in progress. -/
  callDepth : Nat
  log : Log

namespace Machine

/-- A machine at rest with an empty pool. -/
def new (maxIdle capacity : Nat) (threshold : Threshold) : Machine :=
  ⟨.new maxIdle capacity, 0, .empty threshold⟩

/-- Reports an event to the log. -/
def report (e : Event) (m : Machine) : Machine := { m with log := m.log.report e }

/-- Borrows a stack from the pool. -/
def borrowStack (m : Machine) : Stack × Machine :=
  let m' := { m with pool := m.pool.acquire.2 }
  (m.pool.acquire.1, if m.pool.idle = 0 then m'.report (.stackMade m.pool.capacity) else m')

/-- Gives a stack back to the pool. -/
def returnStack (stack : Stack) (m : Machine) : Machine :=
  let m' := { m with pool := m.pool.release stack }
  if m.pool.isFull then m'.report .stackDropped else m'

/-- The machine with an empty log. -/
def flushed (m : Machine) : Machine := { m with log := m.log.flushed }

@[simp] theorem pool_report (e : Event) (m : Machine) : (m.report e).pool = m.pool := rfl

@[simp] theorem callDepth_report (e : Event) (m : Machine) :
    (m.report e).callDepth = m.callDepth := rfl

@[simp] theorem pool_borrowStack (m : Machine) : m.borrowStack.2.pool = m.pool.acquire.2 := by
  unfold borrowStack
  dsimp only
  split <;> rfl

@[simp] theorem callDepth_borrowStack (m : Machine) :
    m.borrowStack.2.callDepth = m.callDepth := by
  unfold borrowStack
  dsimp only
  split <;> rfl

@[simp] theorem pool_returnStack (stack : Stack) (m : Machine) :
    (m.returnStack stack).pool = m.pool.release stack := by
  unfold returnStack
  dsimp only
  split <;> rfl

@[simp] theorem callDepth_returnStack (stack : Stack) (m : Machine) :
    (m.returnStack stack).callDepth = m.callDepth := by
  unfold returnStack
  dsimp only
  split <;> rfl

end Machine

/-- **A computation on the machine** that answers a value or an error. -/
abbrev Run (ε α : Type) := ExceptT ε (StateM Machine) α

namespace Run

/-- Reports an event to the log. -/
def report {ε : Type} (e : Event) : Run ε Unit := fun m => (.ok (), m.report e)

/-- An answer that leaves the machine alone. -/
def answer {ε α : Type} (result : Except ε α) : Run ε α := fun m => (result, m)

/-- The same computation with its errors seen from outside. -/
def mapError {ε ε' α : Type} (f : ε → ε') (x : Run ε α) : Run ε' α := fun m =>
  let (result, m) := StateT.run (ExceptT.run x) m
  (result.mapError f, m)

/-- A computation during which one call more is in progress. -/
def inCall {ε α : Type} (x : Run ε α) : Run ε α := fun m =>
  let (result, m) := StateT.run (ExceptT.run x) { m with callDepth := m.callDepth + 1 }
  (result, { m with callDepth := m.callDepth - 1 })

end Run

end Abacus
