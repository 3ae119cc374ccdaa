import Abacus.Answer

/-!
# Reports

What the program leaves behind when it ends: what it wrote, an exit code, and the history that is
to be kept.

## Main definitions

* `Report`;
* `exitOk`, `exitUsage`, `exitNoInput`, `exitFailure`, `exitRefused`: the exit codes.
-/

namespace Abacus

/-- What the program leaves when it ends. -/
structure Report where
  output : Output
  exitCode : Nat
  /-- The history to keep, if there was a dialogue. -/
  history : Option String
deriving DecidableEq, Repr

namespace CommandLine

/-- All went well. -/
def exitOk : Nat := 0

/-- The arguments make no sense. -/
def exitUsage : Nat := 64

/-- There is no file to read. -/
def exitNoInput : Nat := 66

/-- A line failed. -/
def exitFailure : Nat := 70

/-- A variable is to be set that no process can hold.  This is a fault, and the code is that of a
build that unwinds at a fault.  A build that aborts there, as a release does, has no code of its
own: a signal ends it. -/
def exitRefused : Nat := 101

/-- The tag before what went wrong. -/
def failureTag : String := "Error:"

end CommandLine

end Abacus
