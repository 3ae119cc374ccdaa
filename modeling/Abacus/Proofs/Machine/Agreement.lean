import Abacus.Expr.Evaluate

/-!
# Computations that agree

Two ways of evaluating use the machine differently: one borrows stacks and reports what it has
compiled, the other does neither.  What an evaluation can notice of the machine is the number of
calls in progress, and that a borrowed stack is empty.  Two machines agree when these are as they
should be, and two computations agree when agreeing machines make them answer the same and leave
agreeing machines behind.  Agreement is kept by everything computations are built from, and so by
evaluating an expression in environments whose functions agree.

## Main definitions

* `StackPool.IdleEmpty`: no stack waits with values on it
* `Machine.Agree`, `Run.Agree`, `Environment.Agree`: agreement

## Main results

* `Run.Agree.bind`: agreeing computations one after another
* `Expr.evaluate_agree`: an expression in agreeing environments
-/

namespace Abacus

/-! ### Computations one after another -/

namespace Run

variable {ε α β : Type} {x : Run ε α} {next next' : α → Run ε β}

/-- The second part of a computation starts from what the first part answers and leaves. -/
theorem bind_apply (m : Machine) :
    (x >>= next) m = match x m with
      | (.ok value, m') => next value m'
      | (.error e, m') => (.error e, m') := by
  simp only [bind, ExceptT.bind, ExceptT.mk, StateT.bind]
  rcases x m with ⟨e | value, m'⟩
  -- the first part fails, and the second is not begun
  · rfl
  · rfl

/-- A computation that answers a value has got through its first part. -/
theorem exists_of_bind_eq_ok {m m' : Machine} {value : β}
    (h : (x >>= next) m = (.ok value, m')) :
    ∃ first middle, x m = (.ok first, middle) ∧ next first middle = (.ok value, m') := by
  rw [bind_apply] at h
  rcases hx : x m with ⟨e | first, middle⟩
  · rw [hx] at h
    cases h
  · rw [hx] at h
    exact ⟨first, middle, rfl, h⟩

/-- Two ways to go on are the same if they are for the values that can be answered. -/
theorem bind_congr_of_ok (h : ∀ m value m', x m = (.ok value, m') → next value = next' value) :
    x >>= next = x >>= next' := by
  funext m
  rw [bind_apply, bind_apply]
  rcases hx : x m with ⟨e | value, m'⟩
  · rfl
  · simp only [h m value m' hx]

end Run

/-! ### Idle stacks -/

namespace StackPool

/-- No stack waits with values on it. -/
def IdleEmpty (pool : StackPool) : Prop := ∀ stack ∈ pool.free, stack = []

theorem idleEmpty_new (maxIdle capacity : Nat) : (new maxIdle capacity).IdleEmpty := by
  intro stack h
  cases h

theorem IdleEmpty.acquire {pool : StackPool} (h : pool.IdleEmpty) :
    pool.acquire.1 = [] ∧ pool.acquire.2.IdleEmpty := by
  unfold StackPool.acquire
  split
  -- no stack waits: a new one is empty
  · exact ⟨rfl, h⟩
  -- the stack given back last is one of those that waited
  · next stack rest heq =>
    refine ⟨h stack (heq ▸ List.mem_cons_self), fun other hother => ?_⟩
    exact h other (heq ▸ List.mem_cons_of_mem _ hother)

theorem IdleEmpty.release {pool : StackPool} (h : pool.IdleEmpty) (stack : Stack) :
    (pool.release stack).IdleEmpty := by
  unfold StackPool.release
  split
  -- the pool is full, and the stack is dropped
  · exact h
  · intro other hother
    rcases List.mem_cons.mp hother with rfl | hother
    -- the stack itself has been cleared
    · rfl
    · exact h other hother

end StackPool

/-! ### Agreement -/

/-- The machines count equally many calls in progress, and no stack waits on the first with
values on it.  Nothing is said about the second's stacks, nor about the logs. -/
structure Machine.Agree (m m' : Machine) : Prop where
  idleEmpty : m.pool.IdleEmpty
  callDepth : m.callDepth = m'.callDepth

theorem Machine.Agree.report {m m' : Machine} (h : m.Agree m') (e : Event) :
    (m.report e).Agree m' := ⟨h.idleEmpty, h.callDepth⟩

/-- Results that are the same error, or values in a relation. -/
inductive Answers {ε α β : Type} (R : α → β → Prop) : Except ε α → Except ε β → Prop where
  | ok {a : α} {b : β} (related : R a b) : Answers R (.ok a) (.ok b)
  | error (e : ε) : Answers R (.error e) (.error e)

theorem Answers.eq {ε α : Type} {r r' : Except ε α} (h : Answers Eq r r') : r = r' := by
  cases h with
  | ok related => rw [related]
  | error => rfl

theorem Answers.mapError {ε ε' α β : Type} {R : α → β → Prop} {r : Except ε α} {r' : Except ε β}
    (h : Answers R r r') (f : ε → ε') : Answers R (r.mapError f) (r'.mapError f) := by
  cases h with
  | ok related => exact .ok related
  | error e => exact .error (f e)

theorem Answers.bind_ok {ε α β : Type} {R : α → β → Prop} {r : Except ε α} {r' : Except ε β}
    (h : Answers R r r') {f : α → Except ε β} (hf : ∀ a b, R a b → f a = .ok b) :
    Answers Eq (r.bind f) r' := by
  cases h with
  | ok related =>
    rw [Except.bind, hf _ _ related]
    exact .ok rfl
  | error e => exact .error e

theorem answers_refl {ε α : Type} (r : Except ε α) : Answers Eq r r := by
  cases r with
  | ok a => exact .ok rfl
  | error e => exact .error e

namespace Run

variable {ε ε' α β γ δ : Type} {R : α → β → Prop} {S : γ → δ → Prop}

/-- **Computations that agree**: on agreeing machines they answer values in a relation, or the same
error, and leave agreeing machines. -/
def Agree (R : α → β → Prop) (x : Run ε α) (y : Run ε β) : Prop :=
  ∀ ⦃m m' : Machine⦄, m.Agree m' → Answers R (x m).1 (y m').1 ∧ (x m).2.Agree (y m').2

namespace Agree

theorem pure {a : α} {b : β} (h : R a b) :
    Agree R (Pure.pure a : Run ε α) (Pure.pure b) := fun _ _ hm => ⟨.ok h, hm⟩

theorem throw (e : ε) : Agree R (MonadExcept.throw e : Run ε α) (MonadExcept.throw e) :=
  fun _ _ hm => ⟨.error e, hm⟩

theorem answer {r : Except ε α} {r' : Except ε β} (h : Answers R r r') :
    Agree R (Run.answer r) (Run.answer r') := fun _ _ hm => ⟨h, hm⟩

theorem bind {x : Run ε α} {y : Run ε β} {next : α → Run ε γ} {next' : β → Run ε δ}
    (h : Agree R x y) (hnext : ∀ a b, R a b → Agree S (next a) (next' b)) :
    Agree S (x >>= next) (y >>= next') := by
  intro m m' hm
  obtain ⟨hanswers, hleft⟩ := h hm
  rw [bind_apply, bind_apply]
  rcases hx : x m with ⟨r, m₁⟩
  rcases hy : y m' with ⟨r', m₁'⟩
  rw [hx, hy] at hanswers hleft
  dsimp only at hanswers hleft
  cases hanswers with
  -- both go on, from machines that agree
  | ok related => exact hnext _ _ related hleft
  -- both have failed alike
  | error e => exact ⟨.error e, hleft⟩

theorem mapError {x : Run ε α} {y : Run ε β} (h : Agree R x y) (f : ε → ε') :
    Agree R (Run.mapError f x) (Run.mapError f y) := by
  intro m m' hm
  obtain ⟨hanswers, hleft⟩ := h hm
  exact ⟨hanswers.mapError f, hleft⟩

theorem inCall {x : Run ε α} {y : Run ε β} (h : Agree R x y) :
    Agree R (Run.inCall x) (Run.inCall y) := by
  intro m m' hm
  have hcall : Machine.Agree { m with callDepth := m.callDepth + 1 }
      { m' with callDepth := m'.callDepth + 1 } :=
    ⟨hm.idleEmpty, congrArg (· + 1) hm.callDepth⟩
  obtain ⟨hanswers, hleft⟩ := h hcall
  exact ⟨hanswers, hleft.idleEmpty, congrArg (· - 1) hleft.callDepth⟩

end Agree

end Run

/-- Environments in which names stand for the same values, and for functions that agree. -/
structure Environment.Agree (env env' : Environment) : Prop where
  value? (name : String) : env.value? name = env'.value? name
  function? (name : String) :
    Option.Rel (fun f f' : Callable => ∀ args, Run.Agree Eq (f args) (f' args))
      (env.function? name) (env'.function? name)

namespace Expr

variable {env env' : Environment}

mutual

/-- **An expression in agreeing environments** evaluates in agreement. -/
theorem evaluate_agree (h : env.Agree env') (e : Expr) :
    Run.Agree Eq (e.evaluate env) (e.evaluate env') := by
  match e with
  | num value =>
    rw [evaluate, evaluate]
    exact .pure rfl
  | var name =>
    rw [evaluate, evaluate, h.value? name]
    cases env'.value? name with
    | none => exact .throw _
    | some value => exact .pure rfl
  | group inner =>
    rw [evaluate, evaluate]
    exact evaluate_agree h inner
  | neg operand =>
    rw [evaluate, evaluate]
    refine (evaluate_agree h operand).bind ?_
    rintro x _ rfl
    exact .pure rfl
  | trailingNeg _ =>
    rw [evaluate, evaluate]
    exact .throw _
  | binary op left right =>
    rw [evaluate, evaluate]
    refine (evaluate_agree h left).bind ?_
    rintro x _ rfl
    refine (evaluate_agree h right).bind ?_
    rintro y _ rfl
    exact .answer (answers_refl _)
  | call name arguments =>
    rw [evaluate, evaluate]
    refine (evaluateAll_agree h arguments).bind ?_
    rintro values _ rfl
    -- The name stands for a function in both environments or in neither.
    have hf := h.function? name
    cases hl : env.function? name with
    | none =>
      cases hr : env'.function? name with
      | none => exact .throw _
      | some f' => rw [hl, hr] at hf; cases hf
    | some f =>
      cases hr : env'.function? name with
      | none => rw [hl, hr] at hf; cases hf
      | some f' =>
        rw [hl, hr] at hf
        cases hf with
        | some hcalls => exact (hcalls values).mapError _

theorem evaluateAll_agree (h : env.Agree env') (es : List Expr) :
    Run.Agree Eq (evaluateAll env es) (evaluateAll env' es) := by
  match es with
  | [] =>
    rw [evaluateAll, evaluateAll]
    exact .pure rfl
  | e :: rest =>
    rw [evaluateAll, evaluateAll]
    refine (evaluate_agree h e).bind ?_
    rintro x _ rfl
    refine (evaluateAll_agree h rest).bind ?_
    rintro values _ rfl
    exact .pure rfl

end

end Expr

end Abacus
