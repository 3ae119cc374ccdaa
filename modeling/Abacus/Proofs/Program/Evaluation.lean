import Abacus.Proofs.Program.Distinguishing

/-!
# Running a program and evaluating its expression

The two ways of evaluating an expression compared: its program run on a machine that earlier runs
may have used, and its tree.  They give the same value, or the same first error, when the calls
are recorded in the order in which they are carried out.  Recorded in another order they need
not: some call is then carried out with the name and the number of arguments of another one.

## Main definitions

* `Machine.AfterRuns`: a machine that has been used for runs alone
* `Program.Computes`: all runs of a program give what evaluating an expression gives

## Main results

* `Program.run_eq_evaluate`: when the two ways give the same
* `Program.run_ne_evaluate_of_nested_calls`: a call inside an argument can make them differ
-/

namespace Abacus

/-! ### Machines that have been used -/

/-- The computation leaves the idle stacks of a machine empty if it finds them so. -/
def Run.Tidy {ε α : Type} (x : Run ε α) : Prop :=
  ∀ m : Machine, m.pool.IdleEmpty → (x m).2.pool.IdleEmpty

namespace Run.Tidy

variable {ε ε' α β : Type} {x : Run ε α}

theorem pure (a : α) : (Pure.pure a : Run ε α).Tidy := fun _ hm => hm

theorem throw (e : ε) : (MonadExcept.throw e : Run ε α).Tidy := fun _ hm => hm

theorem bind {next : α → Run ε β} (h : x.Tidy) (hnext : ∀ a, (next a).Tidy) :
    (x >>= next).Tidy := by
  intro m hm
  have hfirst := h m hm
  rw [bind_apply]
  rcases hx : x m with ⟨e | a, m'⟩
  · rw [hx] at hfirst
    exact hfirst
  · rw [hx] at hfirst
    exact hnext a m' hfirst

theorem mapError (h : x.Tidy) (f : ε → ε') : (Run.mapError f x).Tidy := h

end Run.Tidy

/-- The functions of the environment borrow stacks and give them back, and do nothing else to the
stacks that wait. -/
def Environment.Tidy (env : Environment) : Prop :=
  ∀ name f, env.function? name = some f → ∀ args, (f args).Tidy

/-- **A machine as earlier runs leave it**, be they of compiled programs or not, whatever they
answer, and in environments whose functions may run programs on the same machine. -/
inductive Machine.AfterRuns : Machine → Prop where
  | new (maxIdle capacity : Nat) (threshold : Threshold) :
    AfterRuns (.new maxIdle capacity threshold)
  | run {m : Machine} (before : AfterRuns m) (p : Program) (env : Environment) (tidy : env.Tidy) :
    AfterRuns (p.run env m).2

namespace Exec

variable {env : Environment}

theorem tidy_step (henv : env.Tidy) (i : Instruction) (frame : Frame) :
    (outcome (step env i) frame).Tidy := by
  rcases frame with ⟨stack, ⟨values, names, calls⟩⟩
  rw [step, outcome_get]
  cases i with
  | num =>
    rcases values with _ | ⟨value, values⟩
    · exact .throw _
    · exact .pure _
  | var =>
    rcases names with _ | ⟨name, names⟩
    · exact .throw _
    · dsimp only
      cases env.value? name with
      | none => exact .throw _
      | some value => exact .pure _
  | operator op =>
    rcases stack with _ | ⟨y, _ | ⟨x, stack⟩⟩
    · exact .throw _
    · exact .throw _
    · dsimp only
      cases op.apply x y with
      | error e => exact .throw _
      | ok value => exact .pure _
  | neg =>
    rcases stack with _ | ⟨x, stack⟩
    · exact .throw _
    · exact .pure _
  | call =>
    rcases calls with _ | ⟨site, calls⟩
    · exact .throw _
    · dsimp only
      cases hf : env.function? site.name with
      | none => exact .throw _
      | some f =>
        dsimp only
        split
        · exact .throw _
        -- the only instruction that can touch the pool
        · rw [outcome_invoke]
          exact ((henv site.name f hf _).mapError _).bind fun _ => .pure _

theorem tidy_exec (henv : env.Tidy) (is : List Instruction) (frame : Frame) :
    (outcome (exec env is) frame).Tidy := by
  induction is generalizing frame with
  | nil => exact .pure frame
  | cons i rest ih =>
    rw [outcome_cons]
    exact (tidy_step henv i frame).bind ih

end Exec

/-- No run leaves a stack waiting with values on it. -/
theorem Machine.AfterRuns.idleEmpty {m : Machine} (h : m.AfterRuns) : m.pool.IdleEmpty := by
  induction h with
  | new maxIdle capacity threshold => exact StackPool.idleEmpty_new maxIdle capacity
  | @run m before p env tidy ih =>
    -- The run gives back, emptied, the stack it borrowed from a pool that was tidy before.
    rw [Program.pool_run]
    refine StackPool.IdleEmpty.release (Exec.tidy_exec tidy _ _ _ ?_) []
    rw [Machine.pool_borrowStack]
    exact ih.acquire.2

/-- Functions of their arguments leave the machine alone. -/
theorem Environment.tidy_ofFunctions (values : String → Option Float)
    (functions : String → Option (List Float → Except FunctionError Float)) :
    (ofFunctions values functions).Tidy := by
  intro name f hf args m hm
  obtain ⟨g, -, rfl⟩ := Option.map_eq_some_iff.mp hf
  exact hm

/-! ### The two ways compared -/

namespace Program

variable {e : Expr}

/-- Every run of the program gives what evaluating the expression gives, the same value or the same
first error, on every machine that earlier runs may have used. -/
def Computes (p : Program) (e : Expr) (env : Environment) : Prop :=
  ∀ m : Machine, m.AfterRuns → (p.run env m).1 = (e.evaluate env m).1

/-- The ordered program computes the expression. -/
theorem computes_orderedProgram (h : e.hasTrailing = false) {env : Environment}
    (henv : env.Agree env) : e.orderedProgram.Computes e env := by
  intro m hm
  exact (run_orderedProgram_agree h henv ⟨hm.idleEmpty, rfl⟩).1.eq

/-- **A run gives what evaluating the tree gives** when the calls are recorded in the order in which
they are carried out.  For an expression that can have a value this is the only case: where the
calls are not in order, the two are told apart by functions that count calls, and by functions of
their arguments alone if none is called twice. -/
theorem run_eq_evaluate (h : e.hasTrailing = false) :
    ∃ p, ofExpr e = .ok p ∧
      (e.CallsInOrder → ∀ values functions, p.Computes e (.ofFunctions values functions)) ∧
      (e.HasValue → ((∀ env, env.Agree env → p.Computes e env) ↔ e.CallsInOrder)) ∧
      (e.HasValue → e.CallsOnce →
        ((∀ values functions, p.Computes e (.ofFunctions values functions)) ↔
          e.CallsInOrder)) := by
  have hinOrder (inOrder : e.CallsInOrder) (env : Environment) (henv : env.Agree env) :
      (e.orderedProgram.withCalls e.recordedCalls).Computes e env := by
    -- what is compiled is the ordered program
    have heq := (ofExpr_eq_orderedProgram_iff h).mpr inOrder
    rw [ofExpr_eq h, Except.ok.injEq] at heq
    rw [heq]
    exact computes_orderedProgram h henv
  have hfunctions (inOrder : e.CallsInOrder) (values) (functions) :=
    hinOrder inOrder _ (Environment.agree_ofFunctions values functions)
  have hnew : (Machine.new 10 32 .standard).AfterRuns := .new 10 32 .standard
  refine ⟨_, ofExpr_eq h, hfunctions, fun hvalue => ⟨fun hall => ?_, hinOrder⟩,
    fun hvalue honce => ⟨fun hall => ?_, hfunctions⟩⟩
  · by_cases inOrder : e.CallsInOrder
    · exact inOrder
    · obtain ⟨env, henv, hne⟩ := exists_run_ne_evaluate h hvalue inOrder hnew.idleEmpty
      exact absurd (hall env henv _ hnew) hne
  · by_cases inOrder : e.CallsInOrder
    · exact inOrder
    · obtain ⟨values, functions, hne⟩ :=
        exists_functions_run_ne_evaluate h hvalue honce inOrder hnew.idleEmpty
      exact absurd (hall values functions _ hnew) hne

/-- A call inside an argument of the same function, on a machine that a failing run has used, and
one inside an argument of another function. -/
theorem run_eq_evaluate_double_half :
    let twice : Expr := .call "double" [.call "double" [.num 3.0]]
    let nested : Expr := .call "double" [.call "half" [.num 3.0]]
    let nothing : Environment := .ofFunctions (fun _ => none) fun _ => none
    let used := (run ⟨[.call], .empty⟩ nothing (.new 10 32 .standard)).2
    twice.hasTrailing = false ∧ twice.CallsInOrder ∧ used.AfterRuns ∧
      (∃ p, ofExpr twice = .ok p ∧ ∀ values functions,
        (p.run (.ofFunctions values functions) used).1 =
          (twice.evaluate (.ofFunctions values functions) used).1) ∧
      nested.hasTrailing = false ∧ nested.HasValue ∧ nested.CallsOnce ∧
      ∃ p, ofExpr nested = .ok p ∧
        ¬ ∀ values functions, p.Computes nested (.ofFunctions values functions) := by
  intro twice nested nothing used
  have inOrder : twice.CallsInOrder := by decide
  have outOfOrder : ¬ nested.CallsInOrder := by decide
  have once : nested.CallsOnce := by decide
  have hused : used.AfterRuns :=
    .run (.new 10 32 .standard) _ nothing (Environment.tidy_ofFunctions _ _)
  have hvalue : nested.HasValue :=
    ⟨fun _ => none, fun _ => some fun _ => .ok 1.0, .new 10 32 .standard, 1.0, rfl⟩
  obtain ⟨p, hp, hcomputes, -⟩ := run_eq_evaluate (e := twice) rfl
  obtain ⟨q, hq, -, -, hiff⟩ := run_eq_evaluate (e := nested) rfl
  exact ⟨rfl, inOrder, hused,
    ⟨p, hp, fun values functions => hcomputes inOrder values functions used hused⟩,
    rfl, hvalue, once, q, hq, fun hall => outOfOrder ((hiff hvalue once).mp hall)⟩

/-- **A call inside an argument can make the two differ.**  The inner call is carried out first,
with the name and the number of arguments of the outer one. -/
theorem run_ne_evaluate_of_nested_calls :
    let e : Expr := .call "f" [.call "g" []]
    let functions : String → Option (List Float → Except FunctionError Float) := fun name =>
      if name = "f" then some fun _ => .ok 1.0
      else if name = "g" then some fun _ => .ok 2.0
      else none
    let env := Environment.ofFunctions (fun _ => none) functions
    let m := Machine.new 10 32 .standard
    e.hasTrailing = false ∧ ∃ p, ofExpr e = .ok p ∧
      (p.run env m).1 = .error (.here (.stackUnderflow "FUNC" 1 0)) ∧
      (e.evaluate env m).1 = .ok 1.0 :=
  ⟨rfl, _, rfl, rfl, rfl⟩

end Program

end Abacus
