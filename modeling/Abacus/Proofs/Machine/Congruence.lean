import Abacus.Proofs.Program.Execution
import Abacus.Session.Globals

/-!
# Relations that evaluations keep

Evaluations are put together from few parts: answers, one computation after another, errors seen
from outside, calls in progress, and runs that borrow a stack.  A relation of computations that is
kept by these parts is kept by whatever is evaluated, on a tree or on the stack machine, in
environments whose functions are in the relation; and calls of the functions of a session are in
it.  So what is to be known of all evaluations has to be shown of the parts alone.

What a computation does may depend on the number of calls in progress, and so a relation comes
with that number: inside a call there is one more of them.

## Main definitions

* `Run.Congruence`: what relations of computations have to keep
* `Environment.Related`: names that stand for the same values, and for functions in a relation

## Main results

* `Run.Congruence.evaluate`, `Run.Congruence.exec`: an expression, and instructions
* `Run.Congruence.callWithin`: calls of the functions of a session
-/

namespace Abacus

/-- A relation of computations that starts from a number of calls in progress. -/
abbrev Run.Relation (ε : Type) := Nat → ∀ ⦃α : Type⦄, Run ε α → Run ε α → Prop

/-- **Relations that are kept** by everything evaluations are put together from: one of evaluations,
and one of the functions that are called in them. -/
structure Run.Congruence (R : Run.Relation RuntimeError) (R' : Run.Relation FunctionError) :
    Prop where
  answer (calls : Nat) {α : Type} (r : Except RuntimeError α) :
    R calls (Run.answer r) (Run.answer r)
  bind {calls : Nat} {α β : Type} {x y : Run RuntimeError α} {next next' : α → Run RuntimeError β} :
    R calls x y → (∀ a, R calls (next a) (next' a)) → R calls (x >>= next) (y >>= next')
  /-- A function may answer without a body. -/
  answered (calls : Nat) {α : Type} (r : Except FunctionError α) :
    R' calls (Run.answer r) (Run.answer r)
  /-- A call, as it is seen by the evaluation that it is made in. -/
  called {calls : Nat} {α : Type} {x y : Run FunctionError α} :
    R' calls x y →
      R calls (Run.mapError FunctionError.toRuntime x) (Run.mapError FunctionError.toRuntime y)
  /-- The evaluation of a body, as it is seen from outside. -/
  inside {calls : Nat} {α : Type} {x y : Run RuntimeError α} :
    R (calls + 1) x y →
      R' calls (Run.mapError FunctionError.runtime (Run.inCall x))
        (Run.mapError FunctionError.runtime (Run.inCall y))
  /-- A run, whatever is on the stack that it borrows. -/
  run {calls : Nat} {p : Program} {env env' : Environment} :
    (∀ stack, R calls (Exec.outcome (exec env p.instructions) ⟨stack, p.tables⟩)
      (Exec.outcome (exec env' p.instructions) ⟨stack, p.tables⟩)) →
    R calls (p.run env) (p.run env')

/-- Names stand for the same values, and for functions in a relation. -/
structure Environment.Related (R : Run.Relation FunctionError) (calls : Nat)
    (env env' : Environment) : Prop where
  value? (name : String) : env.value? name = env'.value? name
  function? (name : String) :
    Option.Rel (fun f f' : Callable => ∀ args, R calls (f args) (f' args))
      (env.function? name) (env'.function? name)

theorem Environment.Related.bind {R : Run.Relation FunctionError} {calls : Nat}
    {env env' : Environment} (h : env.Related R calls env') (values : Bindings Float) :
    (env.bind values).Related R calls (env'.bind values) := by
  refine ⟨fun name => ?_, h.function?⟩
  change (values.find? name).or (env.value? name) = (values.find? name).or (env'.value? name)
  rw [h.value? name]

namespace Run.Congruence

variable {R : Run.Relation RuntimeError} {R' : Run.Relation FunctionError}
  (hR : Run.Congruence R R') {calls : Nat} {env env' : Environment}

include hR

theorem pure {α : Type} (a : α) : R calls (Pure.pure a) (Pure.pure a) := hR.answer calls (.ok a)

theorem throw {α : Type} (e : RuntimeError) :
    R calls (MonadExcept.throw e : Run RuntimeError α) (MonadExcept.throw e) :=
  hR.answer calls (.error e)

/-! ### Expressions -/

mutual

/-- **An expression in related environments.** -/
theorem evaluate (henv : env.Related R' calls env') (e : Expr) :
    R calls (e.evaluate env) (e.evaluate env') := by
  match e with
  | .num value =>
    rw [Expr.evaluate, Expr.evaluate]
    exact hR.pure value
  | .var name =>
    rw [Expr.evaluate, Expr.evaluate, henv.value? name]
    cases env'.value? name with
    | none => exact hR.throw _
    | some value => exact hR.pure value
  | .group inner =>
    rw [Expr.evaluate, Expr.evaluate]
    exact evaluate henv inner
  | .neg operand =>
    rw [Expr.evaluate, Expr.evaluate]
    apply hR.bind (evaluate henv operand)
    intro value
    exact hR.pure _
  | .trailingNeg _ =>
    rw [Expr.evaluate, Expr.evaluate]
    exact hR.throw _
  | .binary op left right =>
    rw [Expr.evaluate, Expr.evaluate]
    apply hR.bind (evaluate henv left)
    intro x
    apply hR.bind (evaluate henv right)
    intro y
    exact hR.answer calls _
  | .call name arguments =>
    rw [Expr.evaluate, Expr.evaluate]
    apply hR.bind (evaluateAll henv arguments)
    intro values
    have hf := henv.function? name
    generalize env.function? name = found at hf ⊢
    generalize env'.function? name = found' at hf ⊢
    cases hf with
    | none => exact hR.throw _
    | some hcalls => exact hR.called (hcalls values)

theorem evaluateAll (henv : env.Related R' calls env') (es : List Expr) :
    R calls (Expr.evaluateAll env es) (Expr.evaluateAll env' es) := by
  match es with
  | [] =>
    rw [Expr.evaluateAll, Expr.evaluateAll]
    exact hR.pure []
  | e :: rest =>
    rw [Expr.evaluateAll, Expr.evaluateAll]
    apply hR.bind (evaluate henv e)
    intro value
    apply hR.bind (evaluateAll henv rest)
    intro values
    exact hR.pure _

end

/-! ### Instructions -/

theorem step (henv : env.Related R' calls env') (i : Instruction) (frame : Frame) :
    R calls (Exec.outcome (Abacus.step env i) frame)
      (Exec.outcome (Abacus.step env' i) frame) := by
  rcases frame with ⟨stack, ⟨values, names, sites⟩⟩
  cases i with
  | num =>
    rcases values with _ | ⟨value, values⟩
    · exact hR.throw _
    · exact hR.pure _
  | var =>
    rcases names with _ | ⟨name, names⟩
    · exact hR.throw _
    · rw [Exec.outcome_var, Exec.outcome_var]
      apply hR.bind (hR.evaluate henv (.var name))
      intro value
      exact hR.pure _
  | operator op =>
    rcases stack with _ | ⟨y, _ | ⟨x, stack⟩⟩
    · exact hR.throw _
    · exact hR.throw _
    · rw [Exec.outcome_operator, Exec.outcome_operator]
      apply hR.bind (hR.answer calls _)
      intro value
      exact hR.pure _
  | neg =>
    rcases stack with _ | ⟨x, stack⟩
    · exact hR.throw _
    · exact hR.pure _
  | call =>
    rcases sites with _ | ⟨site, sites⟩
    · exact hR.throw _
    · rw [Exec.outcome_step_call, Exec.outcome_step_call]
      have hf := henv.function? site.name
      generalize env.function? site.name = found at hf ⊢
      generalize env'.function? site.name = found' at hf ⊢
      cases hf with
      | none => exact hR.throw _
      | some hcalls =>
        dsimp only
        split
        · exact hR.throw _
        · apply hR.bind (hR.called (hcalls _))
          intro value
          exact hR.pure _

/-- **Instructions in related environments**, from the same frame. -/
theorem exec (henv : env.Related R' calls env') (is : List Instruction) (frame : Frame) :
    R calls (Exec.outcome (Abacus.exec env is) frame)
      (Exec.outcome (Abacus.exec env' is) frame) := by
  induction is generalizing frame with
  | nil => exact hR.pure frame
  | cons i rest ih =>
    rw [Exec.outcome_cons, Exec.outcome_cons]
    exact hR.bind (hR.step henv i frame) ih

/-- A formula, be it a tree or a program. -/
theorem formula (henv : env.Related R' calls env') (formula : Formula) :
    R calls (formula.evaluate env) (formula.evaluate env') := by
  cases formula with
  | tree e => exact hR.evaluate henv e
  | compiled p => exact hR.run fun stack => hR.exec henv p.instructions ⟨stack, p.tables⟩

/-! ### Functions of a session -/

/-- What names stand for in a session, given how user functions are called. -/
theorem environmentWith (g : Globals) {call call' : UserFunction → Callable}
    (hcall : ∀ f args, R' calls (call f args) (call' f args)) :
    (g.environmentWith call).Related R' calls (g.environmentWith call') := by
  refine ⟨fun _ => rfl, fun name => ?_⟩
  change Option.Rel _ (((g.functions.find? name).map call).or _)
    (((g.functions.find? name).map call').or _)
  cases g.functions.find? name with
  | some f => exact .some (hcall f)
  | none =>
    -- the name stands for a built-in function, or for none
    change Option.Rel _ ((BuiltinFunction.ofName? name).map _)
      ((BuiltinFunction.ofName? name).map _)
    cases BuiltinFunction.ofName? name with
    | none => exact .none
    | some f => exact .some fun args => hR.answered calls _

theorem checked (f : UserFunction) (args : List Float) {x y : Run FunctionError Float}
    (h : R' calls x y) : R' calls (f.checked args x) (f.checked args y) := by
  unfold UserFunction.checked
  split
  · exact h
  · exact hR.answered calls _

/-- The body of a function, in environments that are related inside the call. -/
theorem evaluateBody (f : UserFunction) (henv : env.Related R' (calls + 1) env')
    (args : List Float) : R' calls (f.evaluateBody env args) (f.evaluateBody env' args) :=
  hR.inside (hR.formula (henv.bind _) f.body)

/-- **A call of a user function**, with any number of levels left. -/
theorem callWithin (g : Globals) (levels : Nat) (f : UserFunction) (args : List Float) :
    R' calls (UserFunction.callWithin g levels f args)
      (UserFunction.callWithin g levels f args) := by
  induction levels generalizing f args calls with
  | zero => exact hR.checked f args (hR.answered calls _)
  | succ levels ih =>
    apply hR.checked
    apply hR.evaluateBody
    apply hR.environmentWith
    intro f' args'
    exact ih f' args'

end Run.Congruence

end Abacus
