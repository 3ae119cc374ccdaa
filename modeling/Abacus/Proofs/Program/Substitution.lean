import Abacus.Proofs.Program.Occurrences

/-!
# Values in place of variables

A variable that is bound to a value may as well be replaced by the value.  An expression in an
environment that binds variables is the same computation as the expression that has the values in
their places, in the environment that does not.  Names of functions are not replaced.

Of the program that is compiled, each instruction that looks up one of the variables becomes one
that takes a number, so that an entry goes from one table to another.  All other instructions, and
the call sites, stay as they are.  So two programs are compared instruction by instruction, each
with what is left of its tables.

## Main definitions

* `Expr.substitute`: values in place of variables
* `Instruction.Filled`: the same of instructions and their tables

## Main results

* `Expr.evaluate_substitute`: a tree
* `Instruction.Filled.outcome`, `Instruction.filled_orderedProgram`: instructions
* `Formula.evaluate_substitute`: both
-/

namespace Abacus

namespace Expr

mutual

/-- **An expression with values in place of variables.** -/
def substitute (values : Bindings Float) : Expr → Expr
  | num value => num value
  | var name =>
    match values.find? name with
    | some value => num value
    | none => var name
  | group inner => group (substitute values inner)
  | neg operand => neg (substitute values operand)
  | trailingNeg operand => trailingNeg (substitute values operand)
  | binary op left right => binary op (substitute values left) (substitute values right)
  | call name arguments => call name (substituteAll values arguments)

/-- The same for several expressions. -/
def substituteAll (values : Bindings Float) : List Expr → List Expr
  | [] => []
  | argument :: rest => substitute values argument :: substituteAll values rest

end

variable {values : Bindings Float} {name : String} {value : Float}

theorem substitute_var_of_some (h : values.find? name = some value) :
    (var name).substitute values = num value := by
  rw [substitute, h]

theorem substitute_var_of_none (h : values.find? name = none) :
    (var name).substitute values = var name := by
  rw [substitute, h]

theorem length_substituteAll (values : Bindings Float) (es : List Expr) :
    (substituteAll values es).length = es.length := by
  induction es with
  | nil => rfl
  | cons e rest ih => rw [substituteAll, List.length_cons, List.length_cons, ih]

/-! ### What stays -/

mutual

theorem recordedCalls_substitute (values : Bindings Float) (e : Expr) :
    (e.substitute values).recordedCalls = e.recordedCalls := by
  match e with
  | num _ => rfl
  | var name =>
    cases h : values.find? name with
    | none => rw [substitute_var_of_none h]
    | some value => rw [substitute_var_of_some h, recordedCalls, recordedCalls]
  | group inner => exact recordedCalls_substitute values inner
  | neg operand | trailingNeg operand => exact recordedCalls_substitute values operand
  | binary _ left right =>
    rw [substitute, recordedCalls, recordedCalls, recordedCalls_substitute values left,
      recordedCalls_substitute values right]
  | call _ arguments =>
    rw [substitute, recordedCalls, recordedCalls, length_substituteAll,
      recordedCallsAll_substituteAll values arguments]

theorem recordedCallsAll_substituteAll (values : Bindings Float) (es : List Expr) :
    recordedCallsAll (substituteAll values es) = recordedCallsAll es := by
  match es with
  | [] => rfl
  | e :: rest =>
    rw [substituteAll, recordedCallsAll, recordedCallsAll, recordedCalls_substitute values e,
      recordedCallsAll_substituteAll values rest]

end

/-- **Names of functions are not replaced.** -/
theorem callees_substitute (values : Bindings Float) (e : Expr) :
    (e.substitute values).callees = e.callees := by
  rw [callees, recordedCalls_substitute, callees]

mutual

theorem hasTrailing_substitute (values : Bindings Float) (e : Expr) :
    (e.substitute values).hasTrailing = e.hasTrailing := by
  match e with
  | num _ => rfl
  | var name =>
    cases h : values.find? name with
    | none => rw [substitute_var_of_none h]
    | some value => rw [substitute_var_of_some h, hasTrailing, hasTrailing]
  | group inner => exact hasTrailing_substitute values inner
  | neg operand => exact hasTrailing_substitute values operand
  | trailingNeg _ => rfl
  | binary _ left right =>
    rw [substitute, hasTrailing, hasTrailing, hasTrailing_substitute values left,
      hasTrailing_substitute values right]
  | call _ arguments => exact hasTrailingAny_substituteAll values arguments

theorem hasTrailingAny_substituteAll (values : Bindings Float) (es : List Expr) :
    hasTrailingAny (substituteAll values es) = hasTrailingAny es := by
  match es with
  | [] => rfl
  | e :: rest =>
    rw [substituteAll, hasTrailingAny, hasTrailingAny, hasTrailing_substitute values e,
      hasTrailingAny_substituteAll values rest]

end

mutual

/-- **The variables that are left** are those that have no value. -/
theorem variableNames_substitute (values : Bindings Float) (e : Expr) :
    (e.substitute values).variableNames =
      e.variableNames.filter fun name => (values.find? name).isNone := by
  match e with
  | num _ => rfl
  | var name =>
    cases h : values.find? name with
    | none => simp [substitute_var_of_none h, variableNames, h]
    | some value => simp [substitute_var_of_some h, variableNames, h]
  | group inner => exact variableNames_substitute values inner
  | neg operand | trailingNeg operand => exact variableNames_substitute values operand
  | binary _ left right =>
    rw [substitute, variableNames, variableNames, variableNames_substitute values left,
      variableNames_substitute values right, List.filter_append]
  | call _ arguments => exact variableNamesAll_substituteAll values arguments

theorem variableNamesAll_substituteAll (values : Bindings Float) (es : List Expr) :
    variableNamesAll (substituteAll values es) =
      (variableNamesAll es).filter fun name => (values.find? name).isNone := by
  match es with
  | [] => rfl
  | e :: rest =>
    rw [substituteAll, variableNamesAll, variableNamesAll, variableNames_substitute values e,
      variableNamesAll_substituteAll values rest, List.filter_append]

end

/-! ### Trees -/

variable (env : Environment)

theorem evaluate_bind_of_some (h : values.find? name = some value) :
    evaluate (env.bind values) (.var name) = pure value := by
  have hvalue : (env.bind values).value? name = some value := by
    change (values.find? name).or _ = _
    rw [h, Option.some_or]
  rw [evaluate, hvalue]

theorem evaluate_bind_of_none (h : values.find? name = none) :
    evaluate (env.bind values) (.var name) = evaluate env (.var name) := by
  have hvalue : (env.bind values).value? name = env.value? name := by
    change (values.find? name).or _ = _
    rw [h, Option.none_or]
  rw [evaluate, evaluate, hvalue]

mutual

/-- **A tree with values in place of variables** is the same computation as the tree in an
environment that binds the variables. -/
theorem evaluate_substitute (values : Bindings Float) (e : Expr) :
    e.evaluate (env.bind values) = (e.substitute values).evaluate env := by
  match e with
  | num _ | trailingNeg _ => rw [substitute, evaluate, evaluate]
  | var name =>
    cases h : values.find? name with
    | none => rw [substitute_var_of_none h, evaluate_bind_of_none env h]
    | some value => rw [substitute_var_of_some h, evaluate_bind_of_some env h, evaluate]
  | group inner =>
    rw [substitute, evaluate, evaluate]
    exact evaluate_substitute values inner
  | neg operand => rw [substitute, evaluate, evaluate, evaluate_substitute values operand]
  | binary _ left right =>
    rw [substitute, evaluate, evaluate, evaluate_substitute values left,
      evaluate_substitute values right]
  | call _ arguments =>
    -- what is called is looked up among the functions, which are as they were
    rw [substitute, evaluate, evaluate, evaluateAll_substituteAll values arguments,
      Environment.function?_bind]

theorem evaluateAll_substituteAll (values : Bindings Float) (es : List Expr) :
    evaluateAll (env.bind values) es = evaluateAll env (substituteAll values es) := by
  match es with
  | [] => rw [substituteAll, evaluateAll, evaluateAll]
  | e :: rest =>
    rw [substituteAll, evaluateAll, evaluateAll, evaluate_substitute values e,
      evaluateAll_substituteAll values rest]

end

end Expr

/-! ### Instructions -/

namespace Instruction

/-- **Instructions and what is left of their tables, with numbers in place of variables**: those of
the variables that have a value. -/
inductive Filled (values : Bindings Float) :
    List Instruction → List Float → List String → List Instruction → List Float → List String → Prop
  | nil : Filled values [] [] [] [] [] []
  | num {is is' : List Instruction} {vs vs' : List Float} {ns ns' : List String} (value : Float) :
    Filled values is vs ns is' vs' ns' →
      Filled values (.num :: is) (value :: vs) ns (.num :: is') (value :: vs') ns'
  | bound {is is' : List Instruction} {vs vs' : List Float} {ns ns' : List String} {name : String}
    {value : Float} : values.find? name = some value → Filled values is vs ns is' vs' ns' →
      Filled values (.var :: is) vs (name :: ns) (.num :: is') (value :: vs') ns'
  | free {is is' : List Instruction} {vs vs' : List Float} {ns ns' : List String} {name : String} :
    values.find? name = none → Filled values is vs ns is' vs' ns' →
      Filled values (.var :: is) vs (name :: ns) (.var :: is') vs' (name :: ns')
  | other {is is' : List Instruction} {vs vs' : List Float} {ns ns' : List String}
    {i : Instruction} : i ≠ .num → i ≠ .var → Filled values is vs ns is' vs' ns' →
      Filled values (i :: is) vs ns (i :: is') vs' ns'

/-- An instruction that takes neither a number nor a variable works on the stack and on the call
sites alone. -/
theorem exists_step_eq {i : Instruction} (hnum : i ≠ .num) (hvar : i ≠ .var) (env : Environment)
    (values : Bindings Float) (stack : Stack) (calls : List CallSite) :
    ∃ done : Run RuntimeError (Stack × List CallSite), ∀ vs ns,
      Exec.outcome (step env i) ⟨stack, ⟨vs, ns, calls⟩⟩ =
        (do let left ← done; pure ⟨left.1, ⟨vs, ns, left.2⟩⟩) ∧
      Exec.outcome (step (env.bind values) i) ⟨stack, ⟨vs, ns, calls⟩⟩ =
        (do let left ← done; pure ⟨left.1, ⟨vs, ns, left.2⟩⟩) := by
  cases i with
  | num => exact absurd rfl hnum
  | var => exact absurd rfl hvar
  | operator op =>
    rcases stack with _ | ⟨y, _ | ⟨x, stack⟩⟩
    · exact ⟨throw (.here (.stackUnderflow _ 2 0)), fun vs ns => ⟨rfl, rfl⟩⟩
    · exact ⟨throw (.here (.stackUnderflow _ 2 1)), fun vs ns => ⟨rfl, rfl⟩⟩
    · refine ⟨do let value ← Run.answer (op.apply x y); pure (value :: stack, calls),
        fun vs ns => ?_⟩
      rw [Exec.outcome_operator, Exec.outcome_operator]
      simp only [bind_assoc, pure_bind, and_self]
  | neg =>
    rcases stack with _ | ⟨x, stack⟩
    · exact ⟨throw (.here (.stackUnderflow _ 1 0)), fun vs ns => ⟨rfl, rfl⟩⟩
    · exact ⟨pure (-x :: stack, calls), fun vs ns => ⟨rfl, rfl⟩⟩
  | call =>
    rcases calls with _ | ⟨site, calls⟩
    · exact ⟨throw _, fun vs ns => ⟨rfl, rfl⟩⟩
    · simp only [Exec.outcome_step_call, Environment.function?_bind, and_self]
      cases env.function? site.name with
      | none => exact ⟨throw _, fun vs ns => rfl⟩
      | some f =>
        dsimp only
        by_cases hstack : stack.length < site.arguments
        · simp only [if_pos hstack]
          exact ⟨throw _, fun vs ns => rfl⟩
        · simp only [if_neg hstack]
          refine ⟨do
            let value ← Run.mapError FunctionError.toRuntime (f (stack.take site.arguments).reverse)
            pure (value :: stack.drop site.arguments, calls), fun vs ns => ?_⟩
          simp only [bind_assoc, pure_bind]

/-- **Numbers in place of variables do the same** as the variables, in an environment that binds
them, and use up their tables alike. -/
theorem Filled.outcome {values : Bindings Float} {is is' : List Instruction} {vs vs' : List Float}
    {ns ns' : List String} (h : Filled values is vs ns is' vs' ns') (env : Environment)
    (stack : Stack) (calls : List CallSite) :
    Exec.outcome (exec (env.bind values) is) ⟨stack, ⟨vs, ns, calls⟩⟩ =
      Exec.outcome (exec env is') ⟨stack, ⟨vs', ns', calls⟩⟩ := by
  induction h generalizing stack calls with
  | nil => rfl
  | num value _ ih =>
    rw [Exec.outcome_cons, Exec.outcome_cons, Exec.outcome_num, Exec.outcome_num, pure_bind,
      pure_bind, ih]
  | bound hvalue _ ih =>
    rw [Exec.outcome_cons, Exec.outcome_cons, Exec.outcome_var, Exec.outcome_num,
      Expr.evaluate_bind_of_some env hvalue, pure_bind, pure_bind, pure_bind, ih]
  | free hnone _ ih =>
    rw [Exec.outcome_cons, Exec.outcome_cons, Exec.outcome_var, Exec.outcome_var,
      Expr.evaluate_bind_of_none env hnone]
    simp only [bind_assoc, pure_bind, ih]
  | @other is is' vs vs' ns ns' i hnum hvar _ ih =>
    obtain ⟨done, hdone⟩ := exists_step_eq hnum hvar env values stack calls
    rw [Exec.outcome_cons, Exec.outcome_cons, (hdone vs ns).2, (hdone vs' ns').1]
    simp only [bind_assoc, pure_bind, ih]

mutual

/-- **The instructions of an expression**, in front of others. -/
theorem filled_orderedProgram (values : Bindings Float) (e : Expr) {is is' : List Instruction}
    {vs vs' : List Float} {ns ns' : List String} (h : Filled values is vs ns is' vs' ns') :
    Filled values (e.orderedProgram.instructions ++ is) (e.orderedProgram.tables.values ++ vs)
      (e.orderedProgram.tables.names ++ ns)
      ((e.substitute values).orderedProgram.instructions ++ is')
      ((e.substitute values).orderedProgram.tables.values ++ vs')
      ((e.substitute values).orderedProgram.tables.names ++ ns') := by
  match e with
  | .num value => exact h.num value
  | .var name =>
    cases hname : values.find? name with
    | none =>
      rw [Expr.substitute_var_of_none hname]
      exact h.free hname
    | some value =>
      rw [Expr.substitute_var_of_some hname]
      exact h.bound hname
  | .group inner => exact filled_orderedProgram values inner h
  | .trailingNeg operand => exact filled_orderedProgram values operand h
  | .neg operand =>
    simp only [Expr.substitute, Expr.orderedProgram, Program.instructions_append_single,
      Program.tables_append_single]
    exact filled_orderedProgram values operand (h.other nofun nofun)
  | .binary op left right =>
    rw [Expr.substitute, Expr.orderedProgram, Expr.orderedProgram]
    simp only [Program.instructions_append_single, Program.tables_append_single]
    simp only [Program.instructions_append, Program.tables_append, Tables.append_def,
      List.append_assoc]
    exact filled_orderedProgram values left
      (filled_orderedProgram values right (h.other nofun nofun))
  | .call name arguments =>
    simp only [Expr.substitute, Expr.orderedProgram, Program.instructions_append,
      Program.tables_append, Tables.append_def, List.append_assoc, List.nil_append,
      List.singleton_append]
    exact filled_orderedProgramAll values arguments (h.other nofun nofun)

theorem filled_orderedProgramAll (values : Bindings Float) (es : List Expr)
    {is is' : List Instruction} {vs vs' : List Float} {ns ns' : List String}
    (h : Filled values is vs ns is' vs' ns') :
    Filled values ((Expr.orderedProgramAll es).instructions ++ is)
      ((Expr.orderedProgramAll es).tables.values ++ vs)
      ((Expr.orderedProgramAll es).tables.names ++ ns)
      ((Expr.orderedProgramAll (Expr.substituteAll values es)).instructions ++ is')
      ((Expr.orderedProgramAll (Expr.substituteAll values es)).tables.values ++ vs')
      ((Expr.orderedProgramAll (Expr.substituteAll values es)).tables.names ++ ns') := by
  match es with
  | [] => exact h
  | e :: rest =>
    simp only [Expr.substituteAll, Expr.orderedProgramAll, Program.instructions_append,
      Program.tables_append, Tables.append_def, List.append_assoc]
    exact filled_orderedProgram values e (filled_orderedProgramAll values rest h)

end

end Instruction

namespace Program

variable {e : Expr} {p p' : Program}

/-- **A compiled program with values in place of variables** is the same computation as the program
in an environment that binds the variables. -/
theorem run_substitute (values : Bindings Float) (h : ofExpr e = .ok p)
    (h' : ofExpr (e.substitute values) = .ok p') (env : Environment) :
    p.run (env.bind values) = p'.run env := by
  rw [ofExpr_eq (hasTrailing_of_ofExpr h)] at h
  rw [ofExpr_eq (hasTrailing_of_ofExpr h'), Expr.recordedCalls_substitute] at h'
  cases h
  cases h'
  have hfilled := Instruction.filled_orderedProgram values e .nil
  simp only [List.append_nil] at hfilled
  funext m
  have hexec := hfilled.outcome env m.borrowStack.1 e.recordedCalls
  rw [run_eq, run_eq]
  dsimp only [withCalls]
  rw [hexec]

end Program

/-! ### Formulas -/

namespace Formula

variable {strategy : Strategy} {e : Expr} {formula formula' : Formula}

theorem ofExpr?_stackMachine_eq_ok_iff :
    ofExpr? .stackMachine e = .ok formula ↔
      ∃ p, Program.ofExpr e = .ok p ∧ compiled p = formula := by
  rw [ofExpr?]
  cases Program.ofExpr e with
  | error cause => simp [Except.map]
  | ok p => simp [Except.map]

/-- An expression that can be made ready can be made ready with values in place of variables. -/
theorem exists_ofExpr?_substitute (values : Bindings Float)
    (h : ofExpr? strategy e = .ok formula) :
    ∃ formula', ofExpr? strategy (e.substitute values) = .ok formula' := by
  cases strategy with
  | tree => exact ⟨_, rfl⟩
  | stackMachine =>
    obtain ⟨p, hp, -⟩ := ofExpr?_stackMachine_eq_ok_iff.mp h
    have htrailing : (e.substitute values).hasTrailing = false := by
      rw [Expr.hasTrailing_substitute, Program.hasTrailing_of_ofExpr hp]
    exact ⟨_, ofExpr?_stackMachine_eq_ok_iff.mpr ⟨_, Program.ofExpr_eq htrailing, rfl⟩⟩

/-- **A formula with values in place of variables** is the same computation as the formula in an
environment that binds the variables. -/
theorem evaluate_substitute (values : Bindings Float) (h : ofExpr? strategy e = .ok formula)
    (h' : ofExpr? strategy (e.substitute values) = .ok formula') (env : Environment) :
    formula.evaluate (env.bind values) = formula'.evaluate env := by
  cases strategy with
  | tree =>
    cases h
    cases h'
    exact e.evaluate_substitute env values
  | stackMachine =>
    obtain ⟨p, hp, rfl⟩ := ofExpr?_stackMachine_eq_ok_iff.mp h
    obtain ⟨p', hp', rfl⟩ := ofExpr?_stackMachine_eq_ok_iff.mp h'
    exact Program.run_substitute values hp hp' env

end Formula

end Abacus
