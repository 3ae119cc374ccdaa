import Abacus.Decimal.Numeral
import Abacus.Machine

/-!
# Settings

The sizes of the machine's pool of stacks and the threshold of the log, as variables of the
process set them.  A variable that is not set leaves the default in place; so does one whose value
is no size, which is reported.

Any word of 64 bits is a size, also one that no pool can be made to.  Settings are taken to be
`Settings.isAllocatable` wherever a machine is made to them.

## Main definitions

* `Settings`, `Settings.withDefaults`;
* `Settings.isAllocatable`: a pool can be made to the settings, and stacks in it;
* `Settings.ofVariables`: the settings, and what is reported about the variables;
* `thresholdOfVariables`: the threshold.
-/

namespace Abacus

/-- The sizes of a pool of stacks. -/
structure Settings where
  /-- The most stacks that may wait; zero stands for the default. -/
  poolSize : Nat
  /-- How many values a new stack is made for. -/
  stackCapacity : Nat
deriving DecidableEq, Repr

namespace Settings

/-- Ten stacks for 32 values each. -/
def default : Settings := ⟨10, 32⟩

/-- The settings with the default in place of a pool size of zero. -/
def withDefaults (s : Settings) : Settings :=
  if s.poolSize = 0 then { s with poolSize := default.poolSize } else s

/-- A pool can be made to the settings, and stacks in it. -/
def isAllocatable (s : Settings) : Bool :=
  (StackPool.new s.withDefaults.poolSize s.withDefaults.stackCapacity).isAllocatable

/-- The variable for the pool size. -/
def poolSizeVariable : String := "RECKON_STACK_POOL_SIZE"

/-- The variable for the capacity of stacks. -/
def capacityVariable : String := "RECKON_STACK_CAPACITY"

/-- A size is a whole number of 64 bits: digits between any blanks, with a plus sign or without. -/
def readSize? (s : String) : Option Nat :=
  let digits :=
    match (Text.trim s).toList with
    | '+' :: cs => cs
    | cs => cs
  (Decimal.readNatural? digits).filter (· < UInt64.size)

/-- The size a variable sets, and what is reported about it. -/
def sizeOfVariable (value? : String → Option String) (name : String) :
    Option Nat × List Event :=
  match value? name with
  | none => (none, [])
  | some value =>
    match readSize? value with
    | some size => (some size, [])
    | none => (none, [.settingIgnored name value])

/-- **The settings** that variables make, and what is reported about them. -/
def ofVariables (value? : String → Option String) : Settings × List Event :=
  let (poolSize, poolEvents) := sizeOfVariable value? poolSizeVariable
  let (capacity, capacityEvents) := sizeOfVariable value? capacityVariable
  (withDefaults ⟨poolSize.getD default.poolSize, capacity.getD default.stackCapacity⟩,
    poolEvents ++ capacityEvents)

/-- No settings leave the pool without room. -/
theorem poolSize_withDefaults_pos (s : Settings) : 0 < s.withDefaults.poolSize := by
  unfold withDefaults
  split
  · exact (by decide : 0 < default.poolSize)
  · next h => exact Nat.pos_of_ne_zero h

/-- A pool can be made to the default settings, and stacks in it. -/
theorem isAllocatable_default : default.isAllocatable = true := by decide

end Settings

/-- The variable for the threshold of the log. -/
def thresholdVariable : String := "RECKON_LOG"

/-- The threshold a variable sets, or the standard one. -/
def thresholdOfVariables (value? : String → Option String) : Threshold :=
  ((value? thresholdVariable).bind Threshold.read?).getD .standard

/-- A machine at rest, made to settings. -/
def Machine.ofSettings (s : Settings) (threshold : Threshold) : Machine :=
  .new s.withDefaults.poolSize s.withDefaults.stackCapacity threshold

end Abacus
