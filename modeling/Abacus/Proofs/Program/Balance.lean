import Abacus.Proofs.Program.CalledNames
import Mathlib.Algebra.GroupWithZero.Nat

/-!
# Programs and their tables fit together

What is compiled can fail for what it computes, but never because a table is used up or because
the wrong number of values is left.  Nothing of this depends on the order of the call sites: a call
may be carried out with the site of another one, and take too many arguments or too few.  What
counts is the balance of a whole program.  There are as many entries in each table as instructions
that take one, and all instructions together raise the stack by one value, whichever call takes
which arguments.  Each instruction that is carried out keeps the balance of what is left.

## Main definitions

* `Expr.nodeCount`: the nodes of an expression that are not parentheses
* `Program.Raises`: the balance of a program
* `Frame.Fits`: the balance of what is left of a run
* `Program.ComesTo`: how far a run has come

## Main results

* `Program.raises_of_ofExpr`: a compiled program raises the stack by one value
* `Exec.sound_exec`: the balance is kept, and no table is found used up
* `Program.fits_of_ofExpr`: which expressions are compiled, and that their programs fit
-/

namespace Abacus

namespace Expr

mutual

/-- **The nodes of an expression** that are not parentheses. -/
def nodeCount : Expr → Nat
  | num _ | var _ => 1
  | group inner => nodeCount inner
  | neg operand | trailingNeg operand => nodeCount operand + 1
  | binary _ left right => nodeCount left + nodeCount right + 1
  | call _ arguments => nodeCountAll arguments + 1

/-- The same for several expressions together. -/
def nodeCountAll : List Expr → Nat
  | [] => 0
  | argument :: rest => nodeCount argument + nodeCountAll rest

end

mutual

theorem length_orderedProgram {e : Expr} (h : e.hasTrailing = false) :
    e.orderedProgram.instructions.length = e.nodeCount := by
  match e with
  | num _ | var _ => rfl
  | group inner => exact length_orderedProgram (e := inner) h
  | neg operand =>
    have ih := length_orderedProgram (e := operand) h
    simp [orderedProgram, nodeCount, Program.single, ih]
  | trailingNeg _ => simp [hasTrailing] at h
  | binary op left right =>
    simp only [hasTrailing, Bool.or_eq_false_iff] at h
    have ihl := length_orderedProgram h.1
    have ihr := length_orderedProgram h.2
    simp [orderedProgram, nodeCount, Program.single, ihl, ihr, Nat.add_assoc]
  | call name arguments =>
    have ih : (orderedProgramAll arguments).instructions.length = nodeCountAll arguments :=
      length_orderedProgramAll h
    simp [orderedProgram, nodeCount, ih]

theorem length_orderedProgramAll {es : List Expr} (h : hasTrailingAny es = false) :
    (orderedProgramAll es).instructions.length = nodeCountAll es := by
  match es with
  | [] => rfl
  | e :: rest =>
    simp only [hasTrailingAny, Bool.or_eq_false_iff] at h
    have ihe := length_orderedProgram h.1
    have ihrest := length_orderedProgramAll h.2
    simp [orderedProgramAll, nodeCountAll, ihe, ihrest]

end

end Expr

/-! ### The balance of a program -/

/-- The instructions that compute an operator: each takes two values and leaves one. -/
def Instruction.operatorCount (is : List Instruction) : Nat := is.countP (·.operator?.isSome)

@[simp] theorem Instruction.operatorCount_append (is js : List Instruction) :
    operatorCount (is ++ js) = operatorCount is + operatorCount js := List.countP_append

/-- The arguments that calls take, all together. -/
def CallSite.argumentCount (sites : List CallSite) : Nat := (sites.map CallSite.arguments).sum

@[simp] theorem CallSite.argumentCount_append (sites others : List CallSite) :
    argumentCount (sites ++ others) = argumentCount sites + argumentCount others := by
  simp [argumentCount]

namespace Program

open CallSite

/-- **The balance of a program.**  Its tables have an entry for each instruction that takes one, and
its instructions raise the stack by a number of values: the values that are pushed and left, less
those that operators and calls take. -/
structure Raises (p : Program) (n : Int) : Prop where
  values : p.tables.values.length = p.instructions.count .num
  names : p.tables.names.length = p.instructions.count .var
  calls : p.tables.calls.length = p.instructions.count .call
  height : (p.instructions.count .num + p.instructions.count .var +
      p.instructions.count .call : Int) =
    n + Instruction.operatorCount p.instructions + argumentCount p.tables.calls

namespace Raises

variable {p q : Program} {n k : Int}

/-- One program after another raises the stack by what both raise it. -/
theorem append (hp : p.Raises n) (hq : q.Raises k) : (p ++ q).Raises (n + k) := by
  have hheight := hp.height
  have hheight' := hq.height
  refine ⟨?_, ?_, ?_, ?_⟩
  · simp [hp.values, hq.values]
  · simp [hp.names, hq.names]
  · simp [hp.calls, hq.calls]
  · simp only [append_def, Tables.append_def, List.count_append,
      Instruction.operatorCount_append, argumentCount_append]
    omega

/-- What follows a program raises the stack by what is missing. -/
theorem of_append (h : (p ++ q).Raises n) (hp : p.Raises k) : q.Raises (n - k) := by
  obtain ⟨hvalues, hnames, hcalls, hheight⟩ := h
  obtain ⟨hvalues', hnames', hcalls', hheight'⟩ := hp
  simp only [append_def, Tables.append_def, List.count_append, List.length_append,
    Instruction.operatorCount_append, argumentCount_append] at hvalues hnames hcalls hheight
  refine ⟨?_, ?_, ?_, ?_⟩ <;> omega

/-- **The order of the call sites does not matter** for the balance. -/
theorem withCalls {calls : List CallSite} (hp : p.Raises n) (h : calls.Perm p.tables.calls) :
    (p.withCalls calls).Raises n where
  values := hp.values
  names := hp.names
  calls := h.length_eq.trans hp.calls
  height := by
    have hsum : argumentCount calls = argumentCount p.tables.calls := (h.map _).sum_nat
    rw [Program.withCalls, hsum]
    exact hp.height

end Raises

theorem raises_empty : Raises ⟨[], .empty⟩ 0 := ⟨rfl, rfl, rfl, rfl⟩

theorem raises_num (value : Float) : Raises ⟨[.num], ⟨[value], [], []⟩⟩ 1 := ⟨rfl, rfl, rfl, rfl⟩

theorem raises_var (name : String) : Raises ⟨[.var], ⟨[], [name], []⟩⟩ 1 := ⟨rfl, rfl, rfl, rfl⟩

theorem raises_neg : (single .neg).Raises 0 := ⟨rfl, rfl, rfl, rfl⟩

theorem raises_operator (op : BinaryOp) : (single (.operator op)).Raises (-1) := by
  cases op <;> exact ⟨rfl, rfl, rfl, rfl⟩

theorem raises_call (site : CallSite) :
    Raises ⟨[.call], ⟨[], [], [site]⟩⟩ (1 - site.arguments) := by
  refine ⟨rfl, rfl, rfl, ?_⟩
  simp [Instruction.operatorCount, Instruction.operator?, argumentCount]

open Abacus.Expr

mutual

/-- **The program of an expression raises the stack by one value.** -/
theorem raises_orderedProgram (e : Expr) : e.orderedProgram.Raises 1 := by
  match e with
  | .num value => exact raises_num value
  | .var name => exact raises_var name
  | .group inner => exact raises_orderedProgram inner
  | .trailingNeg operand => exact raises_orderedProgram operand
  | .neg operand => exact (raises_orderedProgram operand).append raises_neg
  | .binary op left right =>
    -- two values are pushed, and the operator takes one of them away
    exact ((raises_orderedProgram left).append (raises_orderedProgram right)).append
      (raises_operator op)
  | .call name arguments =>
    have hcall :=
      (raises_orderedProgramAll arguments).append (raises_call ⟨name, arguments.length⟩)
    have hone : (arguments.length + (1 - arguments.length) : Int) = 1 := by omega
    rwa [hone] at hcall

theorem raises_orderedProgramAll (es : List Expr) :
    (orderedProgramAll es).Raises es.length := by
  match es with
  | [] => exact raises_empty
  | e :: rest =>
    have hboth := (raises_orderedProgram e).append (raises_orderedProgramAll rest)
    have hlength : (1 + rest.length : Int) = (e :: rest).length := by
      rw [List.length_cons]
      omega
    rwa [hlength] at hboth

end

/-- **What is compiled raises the stack by one value**, in whatever order its call sites are. -/
theorem raises_of_ofExpr {e : Expr} {p : Program} (h : ofExpr e = .ok p) : p.Raises 1 := by
  rw [ofExpr_eq (hasTrailing_of_ofExpr h)] at h
  cases h
  apply (raises_orderedProgram e).withCalls
  rw [calls_orderedProgram]
  exact recordedCalls_perm e

end Program

/-! ### The balance of a run -/

/-- **What is left of a run fits its frame**: the instructions that are left, with what is left of
the tables, bring the stack to one value. -/
def Frame.Fits (frame : Frame) (rest : List Instruction) : Prop :=
  Program.Raises ⟨rest, frame.tables⟩ (1 - frame.stack.length)

/-- The error does not say that instructions and tables do not fit together.  One that comes out of
a call says nothing about the program that calls. -/
def RuntimeError.SparesProgram (e : RuntimeError) : Prop :=
  ∀ reason, e ≠ .here (.invalidProgram reason)

/-- What a part of a run may come to when certain instructions are left behind it. -/
def Frame.Sound (rest : List Instruction) : Except RuntimeError Frame → Prop
  | .ok frame => frame.Fits rest
  | .error e => e.SparesProgram

theorem RuntimeError.sparesProgram_here {cause : RuntimeCause}
    (h : ∀ reason, cause ≠ .invalidProgram reason) : (here cause).SparesProgram := by
  intro reason heq
  exact h reason (congrArg RuntimeError.cause heq)

/-- An error that a call leaves with is none of the instruction itself. -/
theorem FunctionError.exists_of_toRuntime_eq_here {e : FunctionError} {cause : RuntimeCause}
    (h : e.toRuntime = .here cause) : ∃ fault, cause = .call fault := by
  cases e with
  | fault fault =>
    cases h
    exact ⟨fault, rfl⟩
  | runtime cause => exact absurd (congrArg RuntimeError.calls h) (Nat.succ_ne_zero _)

theorem FunctionError.toRuntime_sparesProgram (e : FunctionError) : e.toRuntime.SparesProgram := by
  intro reason h
  obtain ⟨fault, hfault⟩ := exists_of_toRuntime_eq_here h
  cases hfault

theorem BinaryOp.sparesProgram_of_apply {op : BinaryOp} {x y : Float} {e : RuntimeError}
    (h : op.apply x y = .error e) : e.SparesProgram := by
  rw [op.eq_divisionByZero_of_apply h]
  exact RuntimeError.sparesProgram_here (by simp)

namespace Exec

open Abacus.Frame

variable {env : Environment} {frame : Frame} {i : Instruction} {rest : List Instruction}

/-- What is left when an instruction has brought the stack to a new height. -/
theorem fits_of_raises {p : Program} {n : Int} {stack stack' : Stack} {tables : Tables}
    (hp : p.Raises n) (h : Fits ⟨stack, p.tables ++ tables⟩ (p.instructions ++ rest))
    (hheight : (stack'.length : Int) = stack.length + n) : Fits ⟨stack', tables⟩ rest := by
  have hrest := Program.Raises.of_append (p := p) (q := ⟨rest, tables⟩) h hp
  have hleft : (1 - stack.length - n : Int) = 1 - stack'.length := by omega
  rwa [hleft] at hrest

/-- **Each instruction keeps the balance**, and finds an entry in its table. -/
theorem sound_step (h : frame.Fits (i :: rest)) (m : Machine) :
    Sound rest (outcome (step env i) frame m).1 := by
  obtain ⟨stack, ⟨values, names, calls⟩⟩ := frame
  cases i with
  | num =>
    cases values with
    | nil => simpa using h.values
    | cons value values => exact fits_of_raises (Program.raises_num value) h (by simp)
  | var =>
    cases names with
    | nil => simpa using h.names
    | cons name names =>
      rw [step, outcome_get]
      dsimp only
      cases env.value? name with
      | none => exact RuntimeError.sparesProgram_here (by simp)
      | some value => exact fits_of_raises (Program.raises_var name) h (by simp)
  | operator op =>
    rcases stack with _ | ⟨y, _ | ⟨x, stack⟩⟩
    · exact RuntimeError.sparesProgram_here (by simp)
    · exact RuntimeError.sparesProgram_here (by simp)
    · rw [outcome_operator]
      cases hop : op.apply x y with
      | error e => exact op.sparesProgram_of_apply hop
      | ok value =>
        refine fits_of_raises (Program.raises_operator op) h ?_
        simp only [List.length_cons]
        omega
  | neg =>
    cases stack with
    | nil => exact RuntimeError.sparesProgram_here (by simp)
    | cons x stack => exact fits_of_raises Program.raises_neg h (by simp)
  | call =>
    -- the site may be that of another call: what counts is how many values it takes
    cases calls with
    | nil => simpa using h.calls
    | cons site calls =>
      rw [outcome_step_call]
      cases env.function? site.name with
      | none => exact RuntimeError.sparesProgram_here (by simp)
      | some f =>
        dsimp only
        split
        · exact RuntimeError.sparesProgram_here (by simp)
        · next henough =>
          rw [Run.bind_apply]
          rcases hcall : Run.mapError FunctionError.toRuntime
            (f (stack.take site.arguments).reverse) m with ⟨e | value, m'⟩
          · obtain ⟨e, -, rfl⟩ := Run.exists_of_mapError_eq_error hcall
            exact e.toRuntime_sparesProgram
          · exact fits_of_raises (Program.raises_call site) h (by simp; omega)

/-- The balance is kept by one instruction after another. -/
theorem sound_exec {done : List Instruction} (h : frame.Fits (done ++ rest)) (m : Machine) :
    Sound rest (outcome (exec env done) frame m).1 := by
  -- the instructions that are left stay the same, behind those that are carried out
  induction done generalizing frame m with
  | nil => exact h
  | cons i done ih =>
    have hstep : Sound (done ++ rest) (outcome (step env i) frame m).1 := sound_step h m
    rw [outcome_cons, Run.bind_apply]
    rcases houtcome : outcome (step env i) frame m with ⟨e | frame', m'⟩
    · rw [houtcome] at hstep
      exact hstep
    · rw [houtcome] at hstep
      exact ih hstep m'

end Exec

/-- When nothing is left to do, one value is left, and the tables are used up. -/
theorem Frame.Fits.done {frame : Frame} (h : frame.Fits []) :
    (∃ value, frame.stack = [value]) ∧ frame.tables = .empty := by
  obtain ⟨stack, ⟨values, names, calls⟩⟩ := frame
  obtain ⟨hvalues, hnames, hcalls, hheight⟩ := h
  obtain rfl : values = [] := List.length_eq_zero_iff.mp hvalues
  obtain rfl : names = [] := List.length_eq_zero_iff.mp hnames
  obtain rfl : calls = [] := List.length_eq_zero_iff.mp hcalls
  refine ⟨List.length_eq_one_iff.mp ?_, rfl⟩
  -- no instruction is left to raise the stack, so it has its height already
  simp [Instruction.operatorCount, CallSite.argumentCount] at hheight
  change stack.length = 1
  omega

/-- There is an entry in the table of the instruction, if it takes one. -/
def Tables.HasEntryFor (tables : Tables) : Instruction → Prop
  | .num => tables.values ≠ []
  | .var => tables.names ≠ []
  | .call => tables.calls ≠ []
  | .operator _ | .neg => True

theorem Frame.Fits.hasEntryFor {frame : Frame} {i : Instruction} {rest : List Instruction}
    (h : frame.Fits (i :: rest)) : frame.tables.HasEntryFor i := by
  cases i with
  | num => exact List.ne_nil_of_length_pos (by simp [h.values])
  | var => exact List.ne_nil_of_length_pos (by simp [h.names])
  | call => exact List.ne_nil_of_length_pos (by simp [h.calls])
  | operator op => trivial
  | neg => trivial

namespace Program

/-- **A run of the program has come to a frame**: it has got past certain instructions, the first
ones. -/
def ComesTo (p : Program) (env : Environment) (m : Machine) (past : List Instruction)
    (frame : Frame) : Prop :=
  (Exec.outcome (exec env past) ⟨m.borrowStack.1, p.tables⟩ m.borrowStack.2).1 = .ok frame

section

variable {p : Program} {env : Environment} {m : Machine}

variable (env) in
/-- A borrowed stack is empty, so that a program which raises it by one value fits it. -/
theorem Raises.sound_outcome (h : p.Raises 1) (hm : m.pool.IdleEmpty)
    {past rest : List Instruction} (hsplit : p.instructions = past ++ rest) :
    Frame.Sound rest
      (Exec.outcome (exec env past) ⟨m.borrowStack.1, p.tables⟩ m.borrowStack.2).1 := by
  have hstack : m.borrowStack.1 = [] := hm.acquire.1
  rw [hstack]
  apply Exec.sound_exec
  rw [← hsplit]
  exact h

theorem Raises.fits_of_comesTo (h : p.Raises 1) (hm : m.pool.IdleEmpty)
    {past rest : List Instruction} (hsplit : p.instructions = past ++ rest) {frame : Frame}
    (hframe : p.ComesTo env m past frame) : frame.Fits rest := by
  have hsound := h.sound_outcome env hm hsplit
  rw [hframe] at hsound
  exact hsound

/-- **A run does not find that instructions and tables do not fit together.** -/
theorem Raises.run_ne_invalidProgram (h : p.Raises 1) (hm : m.pool.IdleEmpty) (reason : String) :
    (p.run env m).1 ≠ .error (.here (.invalidProgram reason)) := by
  have hsound := h.sound_outcome env hm (List.append_nil _).symm
  rw [run_fst]
  cases houtcome :
      (Exec.outcome (exec env p.instructions) ⟨m.borrowStack.1, p.tables⟩ m.borrowStack.2).1 with
  | error e =>
    rw [houtcome] at hsound
    intro heq
    exact hsound reason (Except.error.inj heq)
  | ok frame =>
    rw [houtcome] at hsound
    obtain ⟨⟨value, hvalue⟩, -⟩ := Frame.Fits.done hsound
    change frame.result ≠ _
    rw [frame.result_of_stack hvalue]
    nofun

end

/-- **What is compiled, and how it fits.**  An expression has a program unless a minus sign stands
behind its operand somewhere in it.  The program has an instruction for each node but parentheses,
and an entry for each instruction that takes one.  Its runs, in whatever environment, never come to
an instruction whose table is used up, and past the last instruction one value is left and nothing
in the tables. -/
theorem fits_of_ofExpr (e : Expr) :
    ((∃ cause, ofExpr e = .error cause) ↔ e.hasTrailing = true) ∧
      ∀ p, ofExpr e = .ok p →
        p.size = e.nodeCount ∧
        p.tables.values.length = p.instructions.count .num ∧
        p.tables.names.length = p.instructions.count .var ∧
        p.tables.calls.length = p.instructions.count .call ∧
        ∀ (env : Environment) (m : Machine), m.pool.IdleEmpty →
          (∀ reason, (p.run env m).1 ≠ .error (.here (.invalidProgram reason))) ∧
          (∀ past i rest frame, p.instructions = past ++ i :: rest → p.ComesTo env m past frame →
            frame.tables.HasEntryFor i) ∧
          ∀ frame, p.ComesTo env m p.instructions frame →
            (∃ value, frame.stack = [value]) ∧ frame.tables = .empty := by
  refine ⟨⟨?_, ?_⟩, ?_⟩
  · rintro ⟨cause, hcause⟩
    cases htrailing : e.hasTrailing with
    | true => rfl
    | false =>
      rw [ofExpr_eq htrailing] at hcause
      cases hcause
  · intro htrailing
    cases hp : ofExpr e with
    | error cause => exact ⟨cause, rfl⟩
    | ok p =>
      rw [hasTrailing_of_ofExpr hp] at htrailing
      cases htrailing
  · intro p hp
    have hraises := raises_of_ofExpr hp
    refine ⟨?_, hraises.values, hraises.names, hraises.calls, fun env m hm => ⟨?_, ?_, ?_⟩⟩
    · have htrailing := hasTrailing_of_ofExpr hp
      rw [ofExpr_eq htrailing] at hp
      cases hp
      exact Expr.length_orderedProgram htrailing
    · exact hraises.run_ne_invalidProgram hm
    · intro past i rest frame hsplit hframe
      exact (hraises.fits_of_comesTo hm hsplit hframe).hasEntryFor
    · intro frame hframe
      exact (hraises.fits_of_comesTo hm (List.append_nil _).symm hframe).done

/-- Calls that are carried out with the site of another one, each with as many arguments, and what
their run leaves. -/
theorem fits_of_ofExpr_nested :
    let e : Expr := .call "f" [.group (.call "g" [.binary .add (.num 1.0) (.var "x")])]
    let p : Program :=
      ⟨[.num, .var, .operator .add, .call, .call], ⟨[1.0], ["x"], [⟨"f", 1⟩, ⟨"g", 1⟩]⟩⟩
    let env : Environment := ⟨fun _ => some 2.0, fun name =>
      some (.ofFunction fun _ => .ok (if name = "f" then 3.0 else 4.0))⟩
    let m := Machine.new 10 32 .standard
    let left : Frame := ⟨[4.0], .empty⟩
    ofExpr e = .ok p ∧ m.pool.IdleEmpty ∧ p.ComesTo env m p.instructions left ∧
      p.size = e.nodeCount ∧ left.tables = .empty := by
  intro e p env m left
  have hp : ofExpr e = .ok p := rfl
  have hm : m.pool.IdleEmpty := StackPool.idleEmpty_new 10 32
  have hleft : p.ComesTo env m p.instructions left := rfl
  obtain ⟨-, hfits⟩ := fits_of_ofExpr e
  obtain ⟨hsize, -, -, -, hruns⟩ := hfits p hp
  obtain ⟨-, -, hdone⟩ := hruns env m hm
  exact ⟨hp, hm, hleft, hsize, (hdone left hleft).2⟩

end Program

end Abacus
