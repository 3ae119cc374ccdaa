import Abacus.Proofs.Machine.Congruence
import Abacus.Proofs.StackPool.Borrowing

/-!
# Runs inside runs

A function that a program calls may run programs on the same machine, and their functions may do
so again.  Whatever computation is put together from runs, answers, reports to the log and calls in
progress has a history of the stacks it borrows and gives back, and an answer, which depend on
nothing but the number of calls in progress.  On a machine whose pool is at rest the computation
does to the pool what its history says and answers what a new machine makes it answer.

## Main definitions

* `Run.Uses`: the stacks that a computation borrows and gives back, and its answer
* `Run.Reentrant`, `Environment.Reentrant`: nothing is done to the machine but by runs

## Main results

* `Run.Uses.effect`: what a computation does to a machine at rest
* `Globals.reentrant_environment`: what names stand for in a session
* `Program.run_after_runs`: one run after others
-/

namespace Abacus

namespace Run

variable {ε ε' α β : Type}

/-! ### What a computation uses -/

/-- One computation after another, which is told the answer or the error of the first. -/
def andThen (x : Run ε α) (next : Except ε α → Run ε' β) : Run ε' β := fun m =>
  next (x m).1 (x m).2

theorem bind_eq_andThen (x : Run ε α) (next : α → Run ε β) :
    x >>= next = x.andThen fun
      | .ok a => next a
      | .error e => answer (.error e) := by
  funext m
  rw [bind_apply, andThen]
  rcases x m with ⟨e | a, m'⟩
  · rfl
  · rfl

theorem mapError_eq_andThen (f : ε → ε') (x : Run ε α) :
    mapError f x = x.andThen fun r => answer (r.mapError f) := rfl

/-- **What a computation uses of the machine.**  With so many calls in progress it borrows stacks
and gives them back in the steps told, and answers what is told.  A run borrows a stack, its
instructions do what they do, and it gives the stack back however they end. -/
inductive Uses : {ε α : Type} → Run ε α → Nat → List StackPool.Step → Except ε α → Prop
  | answer {ε α : Type} {calls : Nat} (r : Except ε α) : Uses (Run.answer r) calls [] r
  | report {ε : Type} {calls : Nat} (event : Event) :
    Uses (Run.report event : Run ε Unit) calls [] (.ok ())
  | andThen {ε ε' α β : Type} {calls : Nat} {x : Run ε α} {next : Except ε α → Run ε' β}
    {steps later : List StackPool.Step} {r : Except ε α} {r' : Except ε' β} :
    Uses x calls steps r → Uses (next r) calls later r' →
      Uses (x.andThen next) calls (steps ++ later) r'
  | inCall {ε α : Type} {calls : Nat} {x : Run ε α} {steps : List StackPool.Step}
    {r : Except ε α} : Uses x (calls + 1) steps r → Uses (Run.inCall x) calls steps r
  /-- A computation that depends on the number of calls in progress. -/
  | counting {ε α : Type} {calls : Nat} {x : Nat → Run ε α} {steps : List StackPool.Step}
    {r : Except ε α} : Uses (x calls) calls steps r → Uses (fun m => x m.callDepth m) calls steps r
  | run {calls : Nat} {p : Program} {env : Environment} {steps : List StackPool.Step}
    {r : Except RuntimeError Frame} :
    Uses (Exec.outcome (exec env p.instructions) ⟨[], p.tables⟩) calls steps r →
      Uses (p.run env) calls (.borrow :: (steps ++ [.giveBack])) (r.bind Frame.result)

/-- A stack is given back after those that are borrowed later, and none is kept. -/
theorem Uses.nested {x : Run ε α} {calls : Nat} {steps : List StackPool.Step} {r : Except ε α}
    (h : Uses x calls steps r) : StackPool.Nested steps := by
  induction h with
  | answer r => exact .nil
  | report event => exact .nil
  | andThen _ _ ih ih' => exact ih.append ih'
  | inCall _ ih => exact ih
  | counting _ ih => exact ih
  | run _ ih => exact ih.within

/-- **What a computation does to a machine at rest**: it answers what is told, the stacks are
borrowed and given back as told, and the calls in progress are as many as before. -/
theorem Uses.effect {x : Run ε α} {calls : Nat} {steps : List StackPool.Step} {r : Except ε α}
    (h : Uses x calls steps r) {m : Machine} (hcalls : m.callDepth = calls)
    (hpool : m.pool.AtRest) :
    (x m).1 = r ∧ (x m).2.callDepth = calls ∧ (x m).2.pool = m.pool.after steps := by
  induction h generalizing m with
  | answer r => exact ⟨rfl, hcalls, rfl⟩
  | report event => exact ⟨rfl, hcalls, rfl⟩
  | @andThen _ _ _ _ calls x next steps later r r' hx _ ih ih' =>
    obtain ⟨hanswer, hleft, hafter⟩ := ih hcalls hpool
    have hrest : (x m).2.pool.AtRest := by
      rw [hafter]
      exact hx.nested.atRest_after hpool
    obtain ⟨hanswer', hleft', hafter'⟩ := ih' hleft hrest
    rw [Run.andThen, hanswer]
    refine ⟨hanswer', hleft', ?_⟩
    rw [hafter', hafter, StackPool.after_append]
  | @inCall _ _ calls x steps r _ ih =>
    obtain ⟨hanswer, hleft, hafter⟩ :=
      ih (m := { m with callDepth := m.callDepth + 1 }) (congrArg (· + 1) hcalls) hpool
    exact ⟨hanswer, congrArg (· - 1) hleft, hafter⟩
  | @counting _ _ calls x steps r _ ih =>
    dsimp only
    rw [hcalls]
    exact ih hcalls hpool
  | @run calls p env steps r hexec ih =>
    -- The borrowed stack is empty, and the pool without it is at rest.
    obtain ⟨hempty, hborrowed⟩ := hpool.acquire
    have hstack : m.borrowStack.1 = [] := hempty
    have hcalls' : m.borrowStack.2.callDepth = calls := by
      rw [Machine.callDepth_borrowStack, hcalls]
    have hpool' : m.borrowStack.2.pool.AtRest := by
      rw [Machine.pool_borrowStack]
      exact hborrowed
    obtain ⟨hanswer, hleft, hafter⟩ := ih hcalls' hpool'
    rw [Program.run_fst, Program.callDepth_run, Program.pool_run, hstack]
    refine ⟨by rw [hanswer], hleft, ?_⟩
    rw [hafter, Machine.pool_borrowStack, StackPool.after, StackPool.after_append]
    rfl

/-- The same, said of the number of stacks that wait. -/
theorem Uses.pool_eq {x : Run ε α} {calls : Nat} {steps : List StackPool.Step} {r : Except ε α}
    (h : Uses x calls steps r) {m : Machine} (hcalls : m.callDepth = calls)
    (hpool : m.pool.AtRest) :
    (x m).2.pool =
      m.pool.withIdle (min m.pool.maxIdle (max m.pool.idle (StackPool.deepest steps))) := by
  obtain ⟨-, -, hafter⟩ := h.effect hcalls hpool
  rw [hafter, h.nested.after_eq hpool]

/-- A value is passed on, and an error ends the computation. -/
theorem Uses.bind {x : Run ε α} {next : α → Run ε β} {calls : Nat}
    (hx : ∃ steps r, Uses x calls steps r) (hnext : ∀ a, ∃ steps r, Uses (next a) calls steps r) :
    ∃ steps r, Uses (x >>= next) calls steps r := by
  obtain ⟨steps, r, h⟩ := hx
  rw [bind_eq_andThen]
  cases r with
  | error e => exact ⟨_, _, h.andThen (.answer _)⟩
  | ok a =>
    obtain ⟨later, r', h'⟩ := hnext a
    exact ⟨_, _, h.andThen h'⟩

/-! ### Computations that may run programs -/

/-- **The computation does nothing to the machine but by runs**, calls and reports. -/
def Reentrant (x : Run ε α) : Prop := ∀ calls, ∃ steps r, Uses x calls steps r

theorem reentrant_answer (r : Except ε α) : (answer r).Reentrant :=
  fun _ => ⟨[], r, .answer r⟩

theorem reentrant_pure (a : α) : (pure a : Run ε α).Reentrant := reentrant_answer (.ok a)

theorem reentrant_report (event : Event) : (report event : Run ε Unit).Reentrant :=
  fun _ => ⟨[], .ok (), .report event⟩

/-- An error that is seen from outside is passed on. -/
theorem Uses.mapError {x : Run ε α} {calls : Nat} (f : ε → ε')
    (hx : ∃ steps r, Uses x calls steps r) : ∃ steps r, Uses (mapError f x) calls steps r := by
  obtain ⟨steps, r, h⟩ := hx
  rw [mapError_eq_andThen]
  exact ⟨_, _, h.andThen (.answer _)⟩

/-- What uses the machine with a number of calls in progress is a relation that evaluations
keep. -/
theorem congruence_uses :
    Congruence (fun calls _ x _ => ∃ steps r, Uses x calls steps r)
      (fun calls _ x _ => ∃ steps r, Uses x calls steps r) where
  answer calls _ r := ⟨[], r, .answer r⟩
  bind := Uses.bind
  answered calls _ r := ⟨[], r, .answer r⟩
  called := Uses.mapError _
  inside := by
    intro calls α x y hx
    obtain ⟨steps, r, h⟩ := hx
    exact Uses.mapError _ ⟨_, _, h.inCall⟩
  run := by
    intro calls p env env' hexec
    obtain ⟨steps, r, h⟩ := hexec []
    exact ⟨_, _, h.run⟩

namespace Reentrant

theorem bind {x : Run ε α} {next : α → Run ε β} (hx : x.Reentrant)
    (hnext : ∀ a, (next a).Reentrant) : (x >>= next).Reentrant :=
  fun calls => Uses.bind (hx calls) fun a => hnext a calls

theorem mapError {x : Run ε α} (hx : x.Reentrant) (f : ε → ε') : (mapError f x).Reentrant :=
  fun calls => Uses.mapError f (hx calls)

/-- Machines at rest with as many calls in progress have the same answer. -/
theorem fst_eq {x : Run ε α} (hx : x.Reentrant) {m m' : Machine}
    (hcalls : m.callDepth = m'.callDepth) (hpool : m.pool.AtRest) (hpool' : m'.pool.AtRest) :
    (x m).1 = (x m').1 := by
  obtain ⟨steps, r, h⟩ := hx m.callDepth
  obtain ⟨hanswer, -⟩ := h.effect rfl hpool
  obtain ⟨hanswer', -⟩ := h.effect hcalls.symm hpool'
  exact hanswer.trans hanswer'.symm

/-- The pool's requests for memory are as large as before. -/
theorem isAllocatable_snd {x : Run ε α} (hx : x.Reentrant) {m : Machine}
    (hpool : m.pool.AtRest) : (x m).2.pool.isAllocatable = m.pool.isAllocatable := by
  obtain ⟨steps, r, h⟩ := hx m.callDepth
  obtain ⟨-, -, hafter⟩ := h.effect rfl hpool
  rw [hafter, StackPool.isAllocatable_after]

end Reentrant

end Run

/-- **The functions of the environment may run programs on the machine** they are called on, and do
nothing else to it. -/
def Environment.Reentrant (env : Environment) : Prop :=
  ∀ name f, env.function? name = some f → ∀ args, (f args).Reentrant

namespace Environment.Reentrant

variable {env : Environment}

theorem related (h : env.Reentrant) (calls : Nat) :
    env.Related (fun calls _ x _ => ∃ steps r, Run.Uses x calls steps r) calls env := by
  refine ⟨fun _ => rfl, fun name => ?_⟩
  cases hf : env.function? name with
  | none => exact .none
  | some f => exact .some fun args => h name f hf args calls

theorem evaluate (h : env.Reentrant) (e : Expr) : (e.evaluate env).Reentrant := fun calls =>
  Run.congruence_uses.evaluate (h.related calls) e

theorem run (h : env.Reentrant) (p : Program) : (p.run env).Reentrant := fun calls =>
  Run.congruence_uses.formula (h.related calls) (.compiled p)

theorem formula (h : env.Reentrant) (formula : Formula) : (formula.evaluate env).Reentrant := by
  cases formula with
  | tree e => exact h.evaluate e
  | compiled p => exact h.run p

end Environment.Reentrant

/-- Calls of user functions run programs on the machine, and do nothing else to it. -/
theorem UserFunction.reentrant_call (g : Globals) (f : UserFunction) (args : List Float) :
    (f.call (some g) args).Reentrant := by
  intro calls
  have hwithin : ∃ steps r, Run.Uses (callWithin g (maxCallDepth - calls) f args) calls steps r :=
    Run.congruence_uses.callWithin g (maxCallDepth - calls) f args
  obtain ⟨steps, r, h⟩ := hwithin
  exact ⟨steps, r, .counting (x := fun depth => callWithin g (maxCallDepth - depth) f args) h⟩

/-- **So do all functions of a session.** -/
theorem Globals.reentrant_environment (g : Globals) : g.environment.Reentrant := by
  intro name f hf args
  change ((g.functions.find? name).map _).or ((BuiltinFunction.ofName? name).map _) = some f at hf
  cases hfound : g.functions.find? name with
  | some user =>
    rw [hfound] at hf
    cases hf
    exact user.reentrant_call g args
  | none =>
    rw [hfound, Option.map_none, Option.none_or, Option.map_eq_some_iff] at hf
    obtain ⟨builtin, -, rfl⟩ := hf
    exact Run.reentrant_answer _

/-! ### Runs one after another -/

namespace Machine

/-- The machine after runs of programs, one after another. -/
def afterRuns (m : Machine) (runs : List (Program × Environment)) : Machine :=
  runs.foldl (fun m (p, env) => (p.run env m).2) m

/-- Runs leave a machine at rest: its pool is, and no call is in progress. -/
theorem afterRuns_atRest {runs : List (Program × Environment)}
    (hruns : ∀ run ∈ runs, run.2.Reentrant) {m : Machine} (hcalls : m.callDepth = 0)
    (hpool : m.pool.AtRest) :
    (m.afterRuns runs).callDepth = 0 ∧ (m.afterRuns runs).pool.AtRest ∧
      (m.afterRuns runs).pool.maxIdle = m.pool.maxIdle := by
  induction runs generalizing m with
  | nil => exact ⟨hcalls, hpool, rfl⟩
  | cons run rest ih =>
    obtain ⟨p, env⟩ := run
    obtain ⟨steps, r, h⟩ := (hruns (p, env) List.mem_cons_self).run p 0
    obtain ⟨-, hleft, hafter⟩ := h.effect hcalls hpool
    have hrest : (p.run env m).2.pool.AtRest := by
      rw [hafter]
      exact h.nested.atRest_after hpool
    obtain ⟨hcalls', hpool', hmax⟩ :=
      ih (fun run hrun => hruns run (List.mem_cons_of_mem _ hrun)) hleft hrest
    refine ⟨hcalls', hpool', hmax.trans ?_⟩
    rw [h.pool_eq hcalls hpool, StackPool.maxIdle_withIdle]

end Machine

namespace Program

/-- **A run after other runs** answers what it answers on a new machine.  It gives back as many
stacks as it and the runs inside it borrow; then all waiting stacks are empty, and they are as many
as before, or as runs have been nested in it, whichever are more, up to the limit. -/
theorem run_after_runs (maxIdle capacity : Nat) (threshold : Threshold)
    {before : List (Program × Environment)} (hbefore : ∀ run ∈ before, run.2.Reentrant)
    (p : Program) {env : Environment} (henv : env.Reentrant) :
    let m := (Machine.new maxIdle capacity threshold).afterRuns before
    (∀ maxIdle' capacity' threshold',
      (p.run env m).1 = (p.run env (.new maxIdle' capacity' threshold')).1) ∧
    (∃ steps r, (p.run env).Uses 0 steps r) ∧
    ∀ steps r, (p.run env).Uses 0 steps r →
      steps.count .borrow = steps.count .giveBack ∧
      (p.run env m).2.pool = m.pool.after steps ∧
      (p.run env m).2.pool.IdleEmpty ∧
      (p.run env m).2.pool.idle = min maxIdle (max m.pool.idle (StackPool.deepest steps)) := by
  intro m
  obtain ⟨hcalls, hpool, hmax⟩ := Machine.afterRuns_atRest hbefore
    (m := .new maxIdle capacity threshold) rfl (StackPool.atRest_new maxIdle capacity)
  refine ⟨fun maxIdle' capacity' threshold' => ?_, henv.run p 0, fun steps r h => ?_⟩
  · obtain ⟨steps, r, h⟩ := henv.run p 0
    obtain ⟨hused, -⟩ := h.effect hcalls hpool
    obtain ⟨hnew, -⟩ := h.effect (m := .new maxIdle' capacity' threshold') rfl
      (StackPool.atRest_new maxIdle' capacity')
    exact hused.trans hnew.symm
  · obtain ⟨-, -, hafter⟩ := h.effect hcalls hpool
    refine ⟨h.nested.count_eq, hafter, ?_, ?_⟩
    · rw [hafter]
      exact (h.nested.atRest_after hpool).idleEmpty
    · rw [h.pool_eq hcalls hpool, StackPool.idle_withIdle, hmax]
      rfl

/-- Three runs inside one another on a machine that keeps two stacks, after a run of instructions
that do not fit their tables. -/
theorem run_after_runs_nested :
    let square : UserFunction := ⟨"square", ["x"], .compiled
      ⟨[.var, .var, .operator .multiply], ⟨[], ["x", "x"], []⟩⟩⟩
    let fourth : UserFunction := ⟨"fourth", ["x"], .compiled
      ⟨[.var, .call, .call], ⟨[], ["x"], [⟨"square", 1⟩, ⟨"square", 1⟩]⟩⟩⟩
    let env := Globals.environment
      ⟨.empty, .ofList [("square", square), ("fourth", fourth)]⟩
    let before : List (Program × Environment) := [(⟨[.num, .call], ⟨[2.0], [], []⟩⟩, env)]
    let p : Program := ⟨[.num, .call], ⟨[2.0], [], [⟨"fourth", 1⟩]⟩⟩
    let m := (Machine.new 2 8 .standard).afterRuns before
    (∀ run ∈ before, run.2.Reentrant) ∧ env.Reentrant ∧
      (p.run env m).1 = .ok 16.0 ∧ (p.run env (.new 10 32 .off)).1 = .ok 16.0 ∧
      ∃ steps r, (p.run env).Uses 0 steps r ∧ steps.count .borrow = steps.count .giveBack ∧
        min 2 (max 1 (StackPool.deepest steps)) = 2 := by
  intro square fourth env before p m
  have henv : env.Reentrant := Globals.reentrant_environment _
  have hbefore : ∀ run ∈ before, run.2.Reentrant := by
    intro run hrun
    rw [List.mem_singleton.mp hrun]
    exact henv
  obtain ⟨hresult, ⟨steps, r, h⟩, hpool⟩ := run_after_runs 2 8 .standard hbefore p henv
  obtain ⟨hcount, -, -, hidle⟩ := hpool steps r h
  have hnew : (p.run env (.new 10 32 .off)).1 = .ok 16.0 := by
    subst m before p env fourth square
    rfl
  have hleft : m.pool.idle = 1 ∧ (p.run env m).2.pool.idle = 2 := by
    clear hidle hcount h hpool hresult
    subst m before p env fourth square
    decide +kernel
  rw [hleft.1, hleft.2] at hidle
  exact ⟨hbefore, henv, (hresult 10 32 .off).trans hnew, hnew, steps, r, h, hcount, hidle.symm⟩

end Program

end Abacus
