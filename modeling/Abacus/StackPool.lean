/-!
# Stack pools

Stacks of values are reused.  A pool keeps the idle ones, up to a limit; a run borrows one and
gives it back empty.

Memory is taken to be enough for what is asked of it, here as for everything that grows.  But no
more than `memoryLimit` bytes can be asked for at once, and two requests are as large as the sizes
of the pool say: room for all stacks that may wait is made with the pool, and room for all values
that a stack is made for with each new stack.  If one of them is too large the program ends at that
place, which is no outcome here.  So nothing below tells what the program does with a pool that is
not `StackPool.isAllocatable`.  No step changes the sizes, and this is an assumption on how a pool
is made, not on what is done with it.

## Main definitions

* `Stack`: values, the topmost first;
* `StackPool`: the idle stacks;
* `StackPool.isAllocatable`: no request for memory is too large;
* `StackPool.acquire`, `StackPool.release`: borrowing and giving back.

## Main results

* `StackPool.idle_acquire`, `StackPool.idle_release`: what each does to the number of idle stacks;
* `StackPool.isAllocatable_acquire`, `StackPool.isAllocatable_release`: the sizes stay.
-/

namespace Abacus

/-- A stack of values, the topmost first. -/
abbrev Stack := List Float

/-- The stacks waiting to be reused. -/
structure StackPool where
  free : List Stack
  /-- The most stacks that may wait. -/
  maxIdle : Nat
  /-- How many values a new stack is made for. -/
  capacity : Nat
deriving DecidableEq

namespace StackPool

/-- The most bytes that can be asked for at once. -/
def memoryLimit : Nat := UInt64.size / 2 - 1

/-- The bytes of a value. -/
def valueBytes : Nat := 8

/-- The bytes of a stack that waits, beside those for values: three words, for the place of the
values, their number, and the number there is room for. -/
def stackBytes : Nat := 24

/-- **No request for memory is too large**, neither that for the pool nor that for a new stack. -/
def isAllocatable (pool : StackPool) : Bool :=
  stackBytes * pool.maxIdle ≤ memoryLimit && valueBytes * pool.capacity ≤ memoryLimit

/-- A pool in which no stack waits yet. -/
def new (maxIdle capacity : Nat) : StackPool := ⟨[], maxIdle, capacity⟩

/-- The number of waiting stacks. -/
def idle (pool : StackPool) : Nat := pool.free.length

/-- Borrows the stack that was given back last, or a new one if none waits. -/
def acquire (pool : StackPool) : Stack × StackPool :=
  match pool.free with
  | [] => ([], pool)
  | stack :: rest => (stack, { pool with free := rest })

/-- As many stacks wait as may. -/
def isFull (pool : StackPool) : Bool := pool.maxIdle ≤ pool.idle

/-- A stack without its values. -/
def cleared (_ : Stack) : Stack := []

/-- Takes a stack back.  It is emptied first, and dropped if the pool is full. -/
def release (stack : Stack) (pool : StackPool) : StackPool :=
  if pool.isFull then pool else { pool with free := cleared stack :: pool.free }

@[simp] theorem idle_new (maxIdle capacity : Nat) : (new maxIdle capacity).idle = 0 := rfl

/-- Borrowing lowers the number of waiting stacks by one, unless it is zero. -/
theorem idle_acquire (pool : StackPool) : pool.acquire.2.idle = pool.idle - 1 := by
  unfold acquire idle
  split <;> simp_all

/-- Giving back raises the number of waiting stacks by one, unless the pool is full. -/
theorem idle_release (stack : Stack) (pool : StackPool) :
    (pool.release stack).idle = if pool.maxIdle ≤ pool.idle then pool.idle else pool.idle + 1 := by
  by_cases h : pool.maxIdle ≤ pool.free.length <;> simp [release, isFull, idle, h]

@[simp] theorem isAllocatable_acquire (pool : StackPool) :
    pool.acquire.2.isAllocatable = pool.isAllocatable := by
  unfold acquire
  split <;> rfl

@[simp] theorem isAllocatable_release (stack : Stack) (pool : StackPool) :
    (pool.release stack).isAllocatable = pool.isAllocatable := by
  unfold release
  split <;> rfl

end StackPool

end Abacus
