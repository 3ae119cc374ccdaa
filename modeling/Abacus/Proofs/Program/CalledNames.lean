import Abacus.Proofs.Program.Execution
import Abacus.Formula

/-!
# What an evaluation tells of the functions it calls

An evaluation that answers a value has had an answer from every function that is called somewhere
in the expression.  One that fails because a call was refused has called a function that failed for
the same reason.  On the stack machine this is so for as many call sites as there are instructions
that call, and in the program of an expression there are as many of the one as of the other.

## Main definitions

* `Run.Calls`: what becomes of a computation that calls functions
* `Expr.callees`, `Formula.callees`: the names of the functions that are called
* `Formula.UsesAllSites`: no call site is left over

## Main results

* `Expr.calls_evaluate`, `Program.calls_run`: a tree, and a program
* `Formula.calls_evaluate`: both
* `Program.usesAllSites_of_ofExpr`, `Program.callees_of_ofExpr`: the programs of expressions
-/

namespace Abacus

namespace Environment

/-- The function with a name has answered a value, to whatever call. -/
def CanAnswer (env : Environment) (name : String) : Prop :=
  ∃ f args m value m', env.function? name = some f ∧ f args m = (.ok value, m')

/-- The function with a name has failed because a call was refused. -/
def CanFail (env : Environment) (fault : CallFault) (name : String) : Prop :=
  ∃ f args m e m', env.function? name = some f ∧ f args m = (.error e, m') ∧
    e.toRuntime.cause = .call fault

end Environment

/-- Dividing by zero is the one failure of an operator. -/
theorem BinaryOp.eq_divisionByZero_of_apply {op : BinaryOp} {x y : Float} {e : RuntimeError}
    (h : op.apply x y = .error e) : e = .here .divisionByZero := by
  cases op with
  | divide =>
    rw [apply] at h
    split at h
    · cases h
      rfl
    · cases h
  | add | subtract | multiply | modulo | power => cases h

namespace Run

theorem eq_ok_of_mapError {ε ε' α : Type} {f : ε → ε'} {x : Run ε α} {m m' : Machine} {a : α}
    (h : mapError f x m = (.ok a, m')) : x m = (.ok a, m') := by
  rcases hx : x m with ⟨e | a', left⟩
  · simp only [mapError, StateT.run, ExceptT.run, hx] at h
    cases h
  · simp only [mapError, StateT.run, ExceptT.run, hx] at h
    cases h
    rfl

theorem exists_of_mapError_eq_error {ε ε' α : Type} {f : ε → ε'} {x : Run ε α} {m m' : Machine}
    {e' : ε'} (h : mapError f x m = (.error e', m')) :
    ∃ e, x m = (.error e, m') ∧ f e = e' := by
  rcases hx : x m with ⟨e | a, left⟩
  · simp only [mapError, StateT.run, ExceptT.run, hx] at h
    cases h
    exact ⟨e, rfl, rfl⟩
  · simp only [mapError, StateT.run, ExceptT.run, hx] at h
    cases h

theorem exists_of_inCall_eq {ε α : Type} {x : Run ε α} {m m' : Machine} {r : Except ε α}
    (h : inCall x m = (r, m')) : ∃ m₁ m₂, x m₁ = (r, m₂) := by
  have hresult : (x { m with callDepth := m.callDepth + 1 }).1 = r := congrArg Prod.fst h
  exact ⟨_, (x { m with callDepth := m.callDepth + 1 }).2, Prod.ext hresult rfl⟩

variable {α β : Type} {env : Environment} {names names' : List String} {P : α → Prop}
  {Q : β → Prop}

/-- **The computation calls functions with these names**, and it fails for a refused call only
where one of them does.  What it answers has a property. -/
structure Calls (env : Environment) (names : List String) (P : α → Prop)
    (x : Run RuntimeError α) : Prop where
  answered {m : Machine} {value : α} {m' : Machine} : x m = (.ok value, m') →
    P value ∧ ∀ name ∈ names, env.CanAnswer name
  failed {m : Machine} {e : RuntimeError} {m' : Machine} {fault : CallFault} :
    x m = (.error e, m') → e.cause = .call fault → ∃ name ∈ names, env.CanFail fault name

theorem calls_pure {a : α} (h : P a) : Calls env [] P (pure a) where
  answered := by
    intro m value m' hx
    cases hx
    exact ⟨h, nofun⟩
  failed := nofun

theorem calls_throw {e : RuntimeError} (he : ∀ fault, e.cause ≠ .call fault) :
    Calls env names P (throw e) where
  answered := nofun
  failed := by
    intro m e' m' fault hx hcause
    cases hx
    exact absurd hcause (he fault)

theorem calls_operator (op : BinaryOp) (x y : Float) :
    Calls env [] (fun _ => True) (answer (op.apply x y)) where
  answered _ := ⟨trivial, nofun⟩
  failed := by
    intro m e m' fault hx hcause
    obtain rfl := op.eq_divisionByZero_of_apply (congrArg Prod.fst hx)
    cases hcause

/-- The call itself. -/
theorem calls_call {name : String} {f : Callable} (hf : env.function? name = some f)
    (args : List Float) :
    Calls env [name] (fun _ => True) (mapError FunctionError.toRuntime (f args)) where
  answered := by
    intro m value m' hx
    refine ⟨trivial, fun name' hname => ?_⟩
    rw [List.mem_singleton.mp hname]
    exact ⟨f, args, m, value, m', hf, eq_ok_of_mapError hx⟩
  failed := by
    intro m e m' fault hx hcause
    obtain ⟨e', hfails, rfl⟩ := exists_of_mapError_eq_error hx
    exact ⟨name, List.mem_singleton_self name, f, args, m, e', m', hf, hfails, hcause⟩

namespace Calls

theorem bind {x : Run RuntimeError α} {next : α → Run RuntimeError β}
    (hx : Calls env names P x) (hnext : ∀ a, P a → Calls env names' Q (next a)) :
    Calls env (names ++ names') Q (x >>= next) where
  answered := by
    intro m value m' h
    obtain ⟨a, middle, hfirst, hsecond⟩ := exists_of_bind_eq_ok h
    obtain ⟨ha, hnames⟩ := hx.answered hfirst
    obtain ⟨hvalue, hnames'⟩ := (hnext a ha).answered hsecond
    refine ⟨hvalue, fun name hname => ?_⟩
    rcases List.mem_append.mp hname with hname | hname
    · exact hnames name hname
    · exact hnames' name hname
  failed := by
    intro m e m' fault h hcause
    rw [bind_apply] at h
    -- either the first part fails, or the second after the answer of the first
    rcases hfirst : x m with ⟨e' | a, middle⟩
    · rw [hfirst] at h
      cases h
      obtain ⟨name, hname, hfail⟩ := hx.failed hfirst hcause
      exact ⟨name, List.mem_append_left names' hname, hfail⟩
    · rw [hfirst] at h
      obtain ⟨ha, -⟩ := hx.answered hfirst
      obtain ⟨name, hname, hfail⟩ := (hnext a ha).failed h hcause
      exact ⟨name, List.mem_append_right names hname, hfail⟩

/-- The same computation with its answer changed. -/
theorem map {x : Run RuntimeError α} {f : α → β} (hx : Calls env names P x)
    (hf : ∀ a, P a → Q (f a)) : Calls env names Q (do let a ← x; pure (f a)) := by
  rw [← List.append_nil names]
  exact hx.bind fun a ha => calls_pure (hf a ha)

/-- Only the names matter, in whatever order. -/
theorem of_mem {x : Run RuntimeError α} (hx : Calls env names P x)
    (hnames : ∀ name, name ∈ names ↔ name ∈ names') : Calls env names' P x where
  answered h := by
    obtain ⟨hvalue, hall⟩ := hx.answered h
    exact ⟨hvalue, fun name hname => hall name ((hnames name).mpr hname)⟩
  failed h hcause := by
    obtain ⟨name, hname, hfail⟩ := hx.failed h hcause
    exact ⟨name, (hnames name).mp hname, hfail⟩

end Calls

end Run

/-! ### Expressions -/

namespace Expr

/-- The names of the functions that are called in an expression. -/
def callees (e : Expr) : List String := e.recordedCalls.map (·.name)

variable (env : Environment)

mutual

theorem calls_evaluate_performed (e : Expr) :
    Run.Calls env (e.performedCalls.map (·.name)) (fun _ => True) (e.evaluate env) := by
  match e with
  | .num value =>
    rw [Expr.evaluate]
    exact Run.calls_pure trivial
  | .var name =>
    rw [Expr.evaluate]
    cases env.value? name with
    | none => exact Run.calls_throw nofun
    | some value => exact Run.calls_pure trivial
  | .group inner =>
    rw [Expr.evaluate]
    exact calls_evaluate_performed inner
  | .neg operand =>
    rw [Expr.evaluate]
    exact (calls_evaluate_performed operand).map fun _ _ => trivial
  | .trailingNeg _ =>
    rw [Expr.evaluate]
    exact Run.calls_throw nofun
  | .binary op left right =>
    rw [Expr.evaluate, performedCalls, List.map_append]
    apply (calls_evaluate_performed left).bind
    intro x _
    rw [← List.append_nil (right.performedCalls.map _)]
    apply (calls_evaluate_performed right).bind
    intro y _
    exact Run.calls_operator op x y
  | .call name arguments =>
    rw [Expr.evaluate, performedCalls, List.map_append]
    apply (calls_evaluateAll_performed arguments).bind
    intro values _
    cases hf : env.function? name with
    | none => exact Run.calls_throw nofun
    | some f => exact Run.calls_call hf values

theorem calls_evaluateAll_performed (es : List Expr) :
    Run.Calls env ((performedCallsAll es).map (·.name)) (fun _ => True)
      (evaluateAll env es) := by
  match es with
  | [] =>
    rw [evaluateAll]
    exact Run.calls_pure trivial
  | e :: rest =>
    rw [evaluateAll, performedCallsAll, List.map_append]
    apply (calls_evaluate_performed e).bind
    intro value _
    exact (calls_evaluateAll_performed rest).map fun _ _ => trivial

end

/-- **An expression calls the functions that it names.** -/
theorem calls_evaluate (e : Expr) :
    Run.Calls env e.callees (fun _ => True) (e.evaluate env) := by
  apply (calls_evaluate_performed env e).of_mem
  intro name
  exact ((recordedCalls_perm e).map _).mem_iff.symm

end Expr

/-! ### Programs -/

namespace Exec

variable (env : Environment)

/-- One instruction takes the call site that is next, if it calls, and else none. -/
theorem calls_step (i : Instruction) (frame : Frame) :
    Run.Calls env ((frame.tables.calls.take ([i].count .call)).map (·.name))
      (fun left => left.tables.calls = frame.tables.calls.drop ([i].count .call))
      (outcome (step env i) frame) := by
  rcases frame with ⟨stack, ⟨values, names, sites⟩⟩
  cases i with
  | num =>
    rcases values with _ | ⟨value, values⟩
    · exact Run.calls_throw nofun
    · exact Run.calls_pure rfl
  | var =>
    rcases names with _ | ⟨name, names⟩
    · exact Run.calls_throw nofun
    · rw [outcome_var]
      exact (Expr.calls_evaluate env (.var name)).map fun _ _ => rfl
  | operator op =>
    rcases stack with _ | ⟨y, _ | ⟨x, stack⟩⟩
    · exact Run.calls_throw nofun
    · exact Run.calls_throw nofun
    · rw [outcome_operator]
      exact (Run.calls_operator op x y).map fun _ _ => rfl
  | neg =>
    rcases stack with _ | ⟨x, stack⟩
    · exact Run.calls_throw nofun
    · exact Run.calls_pure rfl
  | call =>
    rcases sites with _ | ⟨site, sites⟩
    · exact Run.calls_throw nofun
    · rw [outcome_step_call]
      cases hf : env.function? site.name with
      | none => exact Run.calls_throw nofun
      | some f =>
        dsimp only
        split
        · exact Run.calls_throw nofun
        · exact (Run.calls_call hf _).map fun _ _ => rfl

/-- **Instructions take as many call sites as there are calls among them.** -/
theorem calls_exec (is : List Instruction) (frame : Frame) :
    Run.Calls env ((frame.tables.calls.take (is.count .call)).map (·.name)) (fun _ => True)
      (outcome (exec env is) frame) := by
  induction is generalizing frame with
  | nil => exact Run.calls_pure trivial
  | cons i rest ih =>
    have hcount : (i :: rest).count .call = [i].count .call + rest.count .call := by
      rw [← List.count_append, List.singleton_append]
    rw [outcome_cons, hcount, List.take_add, List.map_append]
    apply (calls_step env i frame).bind
    intro left hleft
    rw [← hleft]
    exact ih left

end Exec

namespace Program

variable (env : Environment)

theorem calls_run (p : Program) :
    Run.Calls env ((p.tables.calls.take (p.instructions.count .call)).map (·.name))
      (fun _ => True) (p.run env) := by
  have hexec (stack : Stack) := Exec.calls_exec env p.instructions ⟨stack, p.tables⟩
  constructor
  · intro m value m' h
    have hresult := congrArg Prod.fst h
    rw [run_fst] at hresult
    rcases hx : Exec.outcome (exec env p.instructions) ⟨m.borrowStack.1, p.tables⟩
      m.borrowStack.2 with ⟨e | frame, left⟩
    · rw [hx] at hresult
      cases hresult
    · obtain ⟨-, hnames⟩ := (hexec _).answered hx
      exact ⟨trivial, hnames⟩
  · intro m e m' fault h hcause
    have hresult := congrArg Prod.fst h
    rw [run_fst] at hresult
    rcases hx : Exec.outcome (exec env p.instructions) ⟨m.borrowStack.1, p.tables⟩
      m.borrowStack.2 with ⟨e' | frame, left⟩
    · rw [hx] at hresult
      cases hresult
      exact (hexec _).failed hx hcause
    -- the instructions leave too few or too many values, and no call is to blame
    · rw [hx] at hresult
      change frame.result = .error e at hresult
      unfold Frame.result at hresult
      split at hresult
      · cases hresult
      · cases hresult
        cases hcause

/-- No call site is left over when all instructions have been carried out. -/
def UsesAllSites (p : Program) : Prop := p.instructions.count .call = p.tables.calls.length

mutual

theorem hasTrailing_of_ofExpr {e : Expr} {p : Program} (h : ofExpr e = .ok p) :
    e.hasTrailing = false := by
  match e with
  | .num _ | .var _ => rfl
  | .group inner =>
    rw [ofExpr] at h
    exact hasTrailing_of_ofExpr (e := inner) h
  | .neg operand =>
    rw [ofExpr] at h
    cases hp : ofExpr operand with
    | error e =>
      rw [hp] at h
      cases h
    | ok q => exact hasTrailing_of_ofExpr (e := operand) hp
  | .trailingNeg _ => cases h
  | .binary op left right =>
    rw [ofExpr] at h
    cases hl : ofExpr left with
    | error e =>
      rw [hl] at h
      cases h
    | ok q =>
      cases hr : ofExpr right with
      | error e =>
        rw [hl, hr] at h
        cases h
      | ok q' =>
        rw [Expr.hasTrailing, hasTrailing_of_ofExpr hl, hasTrailing_of_ofExpr hr]
        rfl
  | .call name arguments =>
    rw [ofExpr] at h
    cases hp : ofArguments arguments with
    | error e =>
      rw [hp] at h
      cases h
    | ok q => exact hasTrailingAny_of_ofArguments hp

theorem hasTrailingAny_of_ofArguments {es : List Expr} {p : Program}
    (h : ofArguments es = .ok p) : Expr.hasTrailingAny es = false := by
  match es with
  | [] => rfl
  | e :: rest =>
    rw [ofArguments] at h
    cases he : ofExpr e with
    | error e =>
      rw [he] at h
      cases h
    | ok q =>
      cases hrest : ofArguments rest with
      | error e =>
        rw [he, hrest] at h
        cases h
      | ok q' =>
        rw [Expr.hasTrailingAny, hasTrailing_of_ofExpr he, hasTrailingAny_of_ofArguments hrest]
        rfl

end

mutual

/-- There are as many instructions that call as calls to carry out. -/
theorem count_call_orderedProgram (e : Expr) :
    e.orderedProgram.instructions.count .call = e.performedCalls.length := by
  match e with
  | .num _ | .var _ => rfl
  | .group inner => exact count_call_orderedProgram inner
  | .neg operand =>
    rw [Expr.orderedProgram, instructions_append, List.count_append,
      count_call_orderedProgram operand]
    rfl
  | .trailingNeg operand => exact count_call_orderedProgram operand
  | .binary op left right =>
    rw [Expr.orderedProgram, instructions_append, instructions_append, List.count_append,
      List.count_append, count_call_orderedProgram left, count_call_orderedProgram right,
      Expr.performedCalls, List.length_append]
    rfl
  | .call name arguments =>
    rw [Expr.orderedProgram, instructions_append, List.count_append,
      count_call_orderedProgramAll arguments, Expr.performedCalls, List.length_append]
    rfl

theorem count_call_orderedProgramAll (es : List Expr) :
    (Expr.orderedProgramAll es).instructions.count .call = (Expr.performedCallsAll es).length := by
  match es with
  | [] => rfl
  | e :: rest =>
    rw [Expr.orderedProgramAll, instructions_append, List.count_append,
      count_call_orderedProgram e, count_call_orderedProgramAll rest, Expr.performedCallsAll,
      List.length_append]

end

theorem usesAllSites_of_ofExpr {e : Expr} {p : Program} (h : ofExpr e = .ok p) :
    p.UsesAllSites := by
  rw [ofExpr_eq (hasTrailing_of_ofExpr h)] at h
  cases h
  change e.orderedProgram.instructions.count .call = e.recordedCalls.length
  rw [count_call_orderedProgram, (Expr.recordedCalls_perm e).length_eq]

theorem callees_of_ofExpr {e : Expr} {p : Program} (h : ofExpr e = .ok p) :
    p.tables.calls.map (·.name) = e.callees := by
  rw [ofExpr_eq (hasTrailing_of_ofExpr h)] at h
  cases h
  rfl

end Program

/-! ### Formulas -/

namespace Formula

/-- The names of the functions that a formula calls. -/
def callees : Formula → List String
  | tree e => e.callees
  | compiled p => p.tables.calls.map (·.name)

/-- No call site of a compiled formula is left over. -/
def UsesAllSites : Formula → Prop
  | tree _ => True
  | compiled p => p.UsesAllSites

/-- **A formula calls the functions that it names.** -/
theorem calls_evaluate (env : Environment) {formula : Formula} (h : formula.UsesAllSites) :
    Run.Calls env formula.callees (fun _ => True) (formula.evaluate env) := by
  cases formula with
  | tree e => exact Expr.calls_evaluate env e
  | compiled p =>
    have hrun := Program.calls_run env p
    rw [h, List.take_length] at hrun
    exact hrun

/-- What an expression is made into for a way of evaluating. -/
def ofExpr? : Strategy → Expr → Except CompileError Formula
  | .tree, e => .ok (tree e)
  | .stackMachine, e => (Program.ofExpr e).map compiled

theorem ofExpr_fst (strategy : Strategy) (e : Expr) (m : Machine) :
    (ofExpr strategy e m).1 = ofExpr? strategy e := by
  cases strategy with
  | tree => rfl
  | stackMachine =>
    rw [ofExpr?]
    change ((compileExpr e >>= fun p => pure (compiled p)) m).1 = _
    rw [Run.bind_apply]
    unfold compileExpr
    rw [Run.bind_apply]
    cases Program.ofExpr e with
    | error e => rfl
    | ok p => rfl

/-- It is the expression itself, or the program that it is compiled to. -/
theorem eq_of_ofExpr {strategy : Strategy} {e : Expr} {formula : Formula} {m m' : Machine}
    (h : ofExpr strategy e m = (.ok formula, m')) :
    formula = tree e ∨ ∃ p, Program.ofExpr e = .ok p ∧ formula = compiled p := by
  have hready : ofExpr? strategy e = .ok formula := by rw [← ofExpr_fst strategy e m, h]
  cases strategy with
  | tree =>
    cases hready
    exact .inl rfl
  | stackMachine =>
    rw [ofExpr?] at hready
    cases hp : Program.ofExpr e with
    | error cause =>
      rw [hp] at hready
      cases hready
    | ok p =>
      rw [hp] at hready
      cases hready
      exact .inr ⟨p, rfl, rfl⟩

/-- What an expression is made into calls what the expression calls. -/
theorem of_ofExpr {strategy : Strategy} {e : Expr} {formula : Formula} {m m' : Machine}
    (h : ofExpr strategy e m = (.ok formula, m')) :
    formula.UsesAllSites ∧ formula.callees = e.callees := by
  rcases eq_of_ofExpr h with rfl | ⟨p, hp, rfl⟩
  · exact ⟨trivial, rfl⟩
  · exact ⟨Program.usesAllSites_of_ofExpr hp, Program.callees_of_ofExpr hp⟩

end Formula

end Abacus
