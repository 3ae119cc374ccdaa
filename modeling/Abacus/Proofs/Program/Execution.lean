import Abacus.Program.Run
import Abacus.Proofs.Machine.Agreement
import Abacus.Proofs.Program.CallOrder

/-!
# Carrying out the program of an expression

The instructions of an expression, in whatever program they stand, push its value: they do to the
machine what evaluating the tree does, fail where it fails, and use up their own operands.  The
statement is an equation between computations on the machine, `Exec.outcome` being what is left
of a part of a run when the frame of a failed one is forgotten.  It holds for the ordered program
in every environment and on every machine; nothing is asked of the functions that are called.

## Main definitions

* `Exec.outcome`: a part of a run that starts from a frame, as a computation on the machine

## Main results

* `Exec.outcome_orderedProgram`: the instructions of an expression push its value
* `Program.run_orderedProgram_agree`: a run of the ordered program evaluates the expression
-/

namespace Abacus

/-- There are as many values as arguments. -/
theorem Expr.length_of_evaluateAll {env : Environment} {es : List Expr} {m m' : Machine}
    {values : List Float} (h : evaluateAll env es m = (.ok values, m')) :
    values.length = es.length := by
  induction es generalizing m values with
  | nil =>
    cases h
    rfl
  | cons e es ih =>
    rw [evaluateAll] at h
    obtain ⟨value, m₁, -, h⟩ := Run.exists_of_bind_eq_ok h
    obtain ⟨others, m₂, hothers, h⟩ := Run.exists_of_bind_eq_ok h
    cases h
    rw [List.length_cons, List.length_cons, ih hothers]

namespace Exec

/-- A part of a run that starts from a frame: it answers the frame it leaves, and of a failure only
the error. -/
def outcome (x : Exec Unit) (frame : Frame) : Run RuntimeError Frame := fun m =>
  ((x frame m).1.1.map fun _ => (x frame m).1.2, (x frame m).2)

/-! ### One instruction after another -/

theorem outcome_seq (x y : Exec Unit) (frame : Frame) :
    outcome (do x; y) frame = (do let frame ← outcome x frame; outcome y frame) := by
  funext m
  show outcome (x >>= fun _ => y) frame m = (outcome x frame >>= fun frame => outcome y frame) m
  simp only [outcome, bind, ExceptT.bind, ExceptT.mk, ExceptT.bindCont, StateT.bind]
  rcases h : x frame m with ⟨⟨(e | u), frame'⟩, m'⟩
  · rfl
  · rfl

variable (env : Environment)

theorem outcome_nil (frame : Frame) : outcome (exec env []) frame = pure frame := rfl

theorem outcome_cons (i : Instruction) (rest : List Instruction) (frame : Frame) :
    outcome (exec env (i :: rest)) frame = (do
      let frame ← outcome (step env i) frame
      outcome (exec env rest) frame) :=
  outcome_seq (step env i) (exec env rest) frame

/-! ### What each instruction does -/

@[simp] theorem outcome_get (k : Frame → Exec Unit) (frame : Frame) :
    outcome (get >>= k) frame = outcome (k frame) frame := rfl

@[simp] theorem outcome_set (frame frame' : Frame) : outcome (set frame') frame = pure frame' := rfl

@[simp] theorem outcome_throw (e : RuntimeError) (frame : Frame) :
    outcome (throw e) frame = throw e := rfl

@[simp] theorem outcome_fail (cause : RuntimeCause) (frame : Frame) :
    outcome (fail cause) frame = throw (.here cause) := rfl

@[simp] theorem outcome_invoke (f : Callable) (args : List Float) (next : Float → Frame)
    (frame : Frame) :
    outcome (do let value ← invoke f args; set (next value)) frame = (do
      let value ← Run.mapError FunctionError.toRuntime (f args)
      pure (next value)) := by
  funext m
  simp only [outcome, invoke, Run.mapError, bind, ExceptT.bind, ExceptT.mk, ExceptT.bindCont,
    StateT.bind, StateT.run, ExceptT.run]
  rcases f args m with ⟨e | value, m'⟩
  · rfl
  · rfl

variable (stack : Stack) (values : List Float) (names : List String) (calls : List CallSite)

theorem outcome_num (value : Float) :
    outcome (step env .num) ⟨stack, ⟨value :: values, names, calls⟩⟩ =
      pure ⟨value :: stack, ⟨values, names, calls⟩⟩ := rfl

theorem outcome_var (name : String) :
    outcome (step env .var) ⟨stack, ⟨values, name :: names, calls⟩⟩ = (do
      let value ← Expr.evaluate env (.var name)
      pure ⟨value :: stack, ⟨values, names, calls⟩⟩) := by
  rw [Expr.evaluate, step, outcome_get]
  cases h : env.value? name with
  | none => simp only [h, outcome_fail]; rfl
  | some value => simp only [h, outcome_set]; rfl

theorem outcome_neg (x : Float) (tables : Tables) :
    outcome (step env .neg) ⟨x :: stack, tables⟩ = pure ⟨-x :: stack, tables⟩ := rfl

theorem outcome_operator (op : BinaryOp) (x y : Float) (tables : Tables) :
    outcome (step env (.operator op)) ⟨y :: x :: stack, tables⟩ = (do
      let value ← Run.answer (op.apply x y)
      pure ⟨value :: stack, tables⟩) := by
  rw [step, outcome_get]
  cases h : op.apply x y with
  | error e => simp only [h, outcome_throw]; rfl
  | ok value => simp only [h, outcome_set]; rfl

/-- What a call does with the call site that is next in its table. -/
theorem outcome_step_call (site : CallSite) :
    outcome (step env .call) ⟨stack, ⟨values, names, site :: calls⟩⟩ =
      match env.function? site.name with
      | some f =>
        if stack.length < site.arguments then
          throw (.here (.stackUnderflow Instruction.call.name site.arguments stack.length))
        else do
          let value ← Run.mapError FunctionError.toRuntime (f (stack.take site.arguments).reverse)
          pure ⟨value :: stack.drop site.arguments, ⟨values, names, calls⟩⟩
      | none => throw (.here (.undefinedFunction site.name)) := by
  rw [step, outcome_get]
  cases h : env.function? site.name with
  | none => simp only [h, outcome_fail]
  | some f =>
    simp only [h]
    by_cases hstack : stack.length < site.arguments
    · rw [if_pos hstack, if_pos hstack, underflow, outcome_fail]
    · rw [if_neg hstack, if_neg hstack, outcome_invoke]

/-- What a call does once its arguments have been pushed, the last one topmost. -/
theorem outcome_call (name : String) (args : List Float) :
    outcome (step env .call)
        ⟨args.reverse ++ stack, ⟨values, names, ⟨name, args.length⟩ :: calls⟩⟩ =
      match env.function? name with
      | some f => do
        let value ← Run.mapError FunctionError.toRuntime (f args)
        pure ⟨value :: stack, ⟨values, names, calls⟩⟩
      | none => throw (.here (.undefinedFunction name)) := by
  have henough : ¬ (args.reverse ++ stack).length < args.length := by simp
  have htake : ((args.reverse ++ stack).take args.length).reverse = args := by simp
  have hdrop : (args.reverse ++ stack).drop args.length = stack := by simp
  rw [outcome_step_call]
  simp only [if_neg henough, htake, hdrop]

/-! ### The instructions of an expression -/

mutual

/-- **The instructions of an expression push its value**, and use up its operands. -/
theorem outcome_orderedProgram {e : Expr} (h : e.hasTrailing = false) (rest : List Instruction)
    (stack : Stack) (tables : Tables) :
    outcome (exec env (e.orderedProgram.instructions ++ rest))
        ⟨stack, e.orderedProgram.tables ++ tables⟩ = (do
      let value ← e.evaluate env
      outcome (exec env rest) ⟨value :: stack, tables⟩) := by
  match e with
  | .num value => simp [Expr.orderedProgram, Expr.evaluate, outcome_cons, outcome_num]
  | .var name => simp [Expr.orderedProgram, outcome_cons, outcome_var]
  | .group inner =>
    rw [Expr.evaluate]
    exact outcome_orderedProgram (e := inner) h rest stack tables
  | .trailingNeg _ => simp [Expr.hasTrailing] at h
  | .neg operand =>
    have ih := outcome_orderedProgram (e := operand) h (.neg :: rest) stack tables
    rw [Expr.orderedProgram, Program.instructions_append_single, Program.tables_append_single, ih,
      Expr.evaluate]
    simp only [outcome_cons, outcome_neg, bind_assoc, pure_bind]
  | .binary op left right =>
    simp only [Expr.hasTrailing, Bool.or_eq_false_iff] at h
    -- For the left operand, the right one and the operator are what follows.
    have hl := outcome_orderedProgram h.1
      (right.orderedProgram.instructions ++ .operator op :: rest) stack
      (right.orderedProgram.tables ++ tables)
    have hr x := outcome_orderedProgram h.2 (.operator op :: rest) (x :: stack) tables
    rw [Expr.orderedProgram, Program.instructions_append_single, Program.tables_append_single,
      Program.instructions_append, Program.tables_append, List.append_assoc, Tables.append_assoc,
      hl, Expr.evaluate]
    simp only [hr, outcome_cons, outcome_operator, bind_assoc, pure_bind]
  | .call name arguments =>
    have harguments : Expr.hasTrailingAny arguments = false := h
    have ih := outcome_orderedProgramAll harguments (.call :: rest) stack
      (⟨[], [], [⟨name, arguments.length⟩]⟩ ++ tables)
    rw [Expr.orderedProgram, Program.instructions_append, Program.tables_append,
      List.append_assoc, Tables.append_assoc, Expr.evaluate]
    refine ih.trans ?_
    rw [bind_assoc]
    -- The arguments that are pushed are as many as the call takes.
    refine Run.bind_congr_of_ok fun m values m' hvalues => ?_
    rw [outcome_cons, ← Expr.length_of_evaluateAll hvalues, Tables.append_def]
    simp only [List.nil_append, List.singleton_append, outcome_call]
    cases env.function? name with
    | none => rfl
    | some f => simp only [bind_assoc, pure_bind]

theorem outcome_orderedProgramAll {es : List Expr} (h : Expr.hasTrailingAny es = false)
    (rest : List Instruction) (stack : Stack) (tables : Tables) :
    outcome (exec env ((Expr.orderedProgramAll es).instructions ++ rest))
        ⟨stack, (Expr.orderedProgramAll es).tables ++ tables⟩ = (do
      let values ← Expr.evaluateAll env es
      outcome (exec env rest) ⟨values.reverse ++ stack, tables⟩) := by
  match es with
  | [] => simp [Expr.orderedProgramAll, Expr.evaluateAll, Tables.empty]
  | e :: es =>
    simp only [Expr.hasTrailingAny, Bool.or_eq_false_iff] at h
    have he := outcome_orderedProgram h.1 ((Expr.orderedProgramAll es).instructions ++ rest) stack
      ((Expr.orderedProgramAll es).tables ++ tables)
    have hes x := outcome_orderedProgramAll h.2 rest (x :: stack) tables
    rw [Expr.orderedProgramAll, Program.instructions_append, Program.tables_append,
      List.append_assoc, Tables.append_assoc, he, Expr.evaluateAll]
    simp only [hes, bind_assoc, pure_bind, List.reverse_cons, List.append_assoc,
      List.singleton_append]

end

/-- Alone, they leave nothing but the value. -/
theorem outcome_orderedProgram_alone {e : Expr} (h : e.hasTrailing = false) :
    outcome (exec env e.orderedProgram.instructions) ⟨[], e.orderedProgram.tables⟩ = (do
      let value ← e.evaluate env
      pure ⟨[value], .empty⟩) := by
  have hexec := outcome_orderedProgram env h [] [] .empty
  rw [List.append_nil, Tables.append_empty] at hexec
  exact hexec

end Exec

/-! ### A run -/

theorem Frame.result_of_stack (frame : Frame) {value : Float} (h : frame.stack = [value]) :
    frame.result = .ok value := by
  rw [Frame.result, h]

namespace Program

variable {p : Program} {env : Environment} {m : Machine}

/-- The result of a run is what its instructions come to on a borrowed stack. -/
theorem run_fst : (p.run env m).1 =
    (Exec.outcome (exec env p.instructions) ⟨m.borrowStack.1, p.tables⟩ m.borrowStack.2).1.bind
      Frame.result := by
  unfold Program.run Exec.outcome
  dsimp only
  rcases exec env p.instructions ⟨m.borrowStack.1, p.tables⟩ m.borrowStack.2 with
    ⟨⟨e | u, frame⟩, m'⟩
  · rfl
  · rfl

/-- However a run ends, its stack goes back to the pool that its instructions leave. -/
theorem pool_run : (p.run env m).2.pool =
    (Exec.outcome (exec env p.instructions) ⟨m.borrowStack.1, p.tables⟩
      m.borrowStack.2).2.pool.release [] := by
  unfold Program.run Exec.outcome
  dsimp only
  rcases exec env p.instructions ⟨m.borrowStack.1, p.tables⟩ m.borrowStack.2 with ⟨⟨r, frame⟩, m'⟩
  dsimp only
  rw [Machine.pool_returnStack]
  split
  · rfl
  · rfl

theorem callDepth_run : (p.run env m).2.callDepth =
    (Exec.outcome (exec env p.instructions) ⟨m.borrowStack.1, p.tables⟩
      m.borrowStack.2).2.callDepth := by
  unfold Program.run Exec.outcome
  dsimp only
  rcases exec env p.instructions ⟨m.borrowStack.1, p.tables⟩ m.borrowStack.2 with ⟨⟨r, frame⟩, m'⟩
  dsimp only
  rw [Machine.callDepth_returnStack]
  split
  · rfl
  · rfl

/-- A run agrees with a computation whose value its instructions leave on an empty stack. -/
theorem run_agree {y : Run RuntimeError Float}
    (h : Run.Agree (fun frame value => frame.stack = [value])
      (Exec.outcome (exec env p.instructions) ⟨[], p.tables⟩) y) :
    Run.Agree Eq (p.run env) y := by
  intro m m' hm
  -- The borrowed stack is empty, and borrowing it is not noticed.
  obtain ⟨hempty, hidle⟩ := hm.idleEmpty.acquire
  have hstack : m.borrowStack.1 = [] := hempty
  have hborrowed : m.borrowStack.2.Agree m' :=
    ⟨by rw [Machine.pool_borrowStack]; exact hidle, by
      rw [Machine.callDepth_borrowStack]; exact hm.callDepth⟩
  obtain ⟨hanswers, hleft⟩ := h hborrowed
  refine ⟨?_, ?_, ?_⟩
  -- the one value on the stack is the answer
  · rw [run_fst, hstack]
    exact hanswers.bind_ok fun frame value => frame.result_of_stack
  -- however the run has ended, its stack is cleared and given back
  · rw [pool_run, hstack]
    exact hleft.idleEmpty.release []
  · rw [callDepth_run, hstack]
    exact hleft.callDepth

variable {e : Expr} {env' : Environment}

/-- **A run of the ordered program evaluates its expression.** -/
theorem run_orderedProgram_agree (h : e.hasTrailing = false) (henv : env.Agree env') :
    Run.Agree Eq (e.orderedProgram.run env) (e.evaluate env') := by
  refine run_agree ?_
  rw [Exec.outcome_orderedProgram_alone env h, ← bind_pure (e.evaluate env')]
  refine (Expr.evaluate_agree henv e).bind ?_
  rintro value _ rfl
  exact .pure rfl

end Program

end Abacus
