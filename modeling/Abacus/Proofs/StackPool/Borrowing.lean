import Abacus.Proofs.Machine.Agreement

/-!
# Borrowing stacks and giving them back

What happens to a pool while stacks are borrowed and given back, each after those that were
borrowed later.  A pool at rest holds nothing but empty stacks, so that only their number matters;
after such steps it is at rest again, and the number follows from the most stacks that were out at
once.

## Main definitions

* `StackPool.Step`, `StackPool.after`: steps, and the pool after them
* `StackPool.Nested`: each stack is given back after those that were borrowed later
* `StackPool.deepest`: the most stacks that are out at once
* `StackPool.AtRest`: nothing but empty stacks wait, and no more than may

## Main results

* `StackPool.isAllocatable_after`: no steps make a request for memory too large
* `StackPool.Nested.after_eq`: what nested steps do to a pool at rest
-/

namespace Abacus.StackPool

/-! ### Steps -/

/-- What is done to a pool. -/
inductive Step where
  | borrow | giveBack
deriving DecidableEq, Repr

/-- The pool after some steps.  What is on a stack that is given back does not matter. -/
def after (pool : StackPool) : List Step → StackPool
  | [] => pool
  | .borrow :: steps => pool.acquire.2.after steps
  | .giveBack :: steps => (pool.release []).after steps

theorem after_append (pool : StackPool) (steps later : List Step) :
    pool.after (steps ++ later) = (pool.after steps).after later := by
  induction steps generalizing pool with
  | nil => rfl
  | cons step steps ih => cases step <;> exact ih _

/-- **No steps make a request for memory too large**, nested or not. -/
theorem isAllocatable_after (pool : StackPool) (steps : List Step) :
    (pool.after steps).isAllocatable = pool.isAllocatable := by
  induction steps generalizing pool with
  | nil => rfl
  | cons step steps ih =>
    cases step with
    | borrow => rw [after, ih, isAllocatable_acquire]
    | giveBack => rw [after, ih, isAllocatable_release]

/-- **The steps are nested**: each stack is given back after those that were borrowed later, and
none stays out. -/
inductive Nested : List Step → Prop
  | nil : Nested []
  | append {steps later : List Step} : Nested steps → Nested later → Nested (steps ++ later)
  | within {steps : List Step} : Nested steps → Nested (.borrow :: (steps ++ [.giveBack]))

theorem Nested.count_eq {steps : List Step} (h : Nested steps) :
    steps.count .borrow = steps.count .giveBack := by
  induction h with
  | nil => rfl
  | append _ _ ih ih' => rw [List.count_append, List.count_append, ih, ih']
  | within _ ih => simp [ih]

/-! ### How many stacks are out -/

/-- The most stacks that are out at once during some steps, when so many are out before them. -/
def deepestFrom (out : Nat) : List Step → Nat
  | [] => out
  | .borrow :: steps => deepestFrom (out + 1) steps
  | .giveBack :: steps => max out (deepestFrom (out - 1) steps)

/-- **The most stacks that are out at once.** -/
def deepest (steps : List Step) : Nat := deepestFrom 0 steps

theorem le_deepestFrom (out : Nat) (steps : List Step) : out ≤ deepestFrom out steps := by
  induction steps generalizing out with
  | nil => exact Nat.le_refl out
  | cons step steps ih =>
    cases step with
    | borrow => exact Nat.le_of_succ_le (ih (out + 1))
    | giveBack => exact Nat.le_max_left _ _

theorem Nested.exists_deepestFrom_append {steps : List Step} (h : Nested steps) :
    ∃ d, ∀ out later,
      deepestFrom out (steps ++ later) = max (out + d) (deepestFrom out later) := by
  induction h with
  | nil => exact ⟨0, fun out later => (Nat.max_eq_right (le_deepestFrom out later)).symm⟩
  | append _ _ ih ih' =>
    obtain ⟨d, hd⟩ := ih
    obtain ⟨d', hd'⟩ := ih'
    refine ⟨max d d', fun out later => ?_⟩
    rw [List.append_assoc, hd, hd']
    omega
  | within _ ih =>
    obtain ⟨d, hd⟩ := ih
    refine ⟨d + 1, fun out later => ?_⟩
    rw [List.cons_append, List.append_assoc, deepestFrom, hd]
    simp only [List.cons_append, List.nil_append, deepestFrom, Nat.add_sub_cancel]
    omega

/-- Nested steps leave as many stacks out as before. -/
theorem Nested.deepestFrom_append {steps : List Step} (h : Nested steps) (out : Nat)
    (later : List Step) :
    deepestFrom out (steps ++ later) = max (out + deepest steps) (deepestFrom out later) := by
  obtain ⟨d, hd⟩ := h.exists_deepestFrom_append
  have hdeepest : deepest steps = d := by simpa [deepest, deepestFrom] using hd 0 []
  rw [hd, hdeepest]

theorem Nested.deepest_append {steps : List Step} (h : Nested steps) (later : List Step) :
    deepest (steps ++ later) = max (deepest steps) (deepest later) := by
  simpa [deepest] using h.deepestFrom_append 0 later

theorem Nested.deepest_within {steps : List Step} (h : Nested steps) :
    deepest (.borrow :: (steps ++ [.giveBack])) = deepest steps + 1 := by
  have happend := h.deepestFrom_append 1 [.giveBack]
  simp only [deepestFrom] at happend
  rw [deepest, deepestFrom, happend]
  omega

/-! ### Pools at rest -/

/-- **A pool at rest**: no stack waits with values on it, and no more wait than may. -/
structure AtRest (pool : StackPool) : Prop where
  idleEmpty : pool.IdleEmpty
  idle_le : pool.idle ≤ pool.maxIdle

theorem atRest_new (maxIdle capacity : Nat) : (new maxIdle capacity).AtRest :=
  ⟨idleEmpty_new maxIdle capacity, Nat.zero_le _⟩

@[simp] theorem maxIdle_acquire (pool : StackPool) : pool.acquire.2.maxIdle = pool.maxIdle := by
  unfold StackPool.acquire
  split <;> rfl

@[simp] theorem maxIdle_release (pool : StackPool) (stack : Stack) :
    (pool.release stack).maxIdle = pool.maxIdle := by
  unfold StackPool.release
  split <;> rfl

/-- A pool at rest lends an empty stack, and is at rest without it. -/
theorem AtRest.acquire {pool : StackPool} (h : pool.AtRest) :
    pool.acquire.1 = [] ∧ pool.acquire.2.AtRest := by
  obtain ⟨hempty, hidle⟩ := h.idleEmpty.acquire
  refine ⟨hempty, hidle, ?_⟩
  rw [idle_acquire, maxIdle_acquire]
  exact Nat.le_trans (Nat.sub_le _ _) h.idle_le

/-- It takes any stack back, and is at rest with it. -/
theorem AtRest.release {pool : StackPool} (h : pool.AtRest) (stack : Stack) :
    (pool.release stack).AtRest := by
  refine ⟨h.idleEmpty.release stack, ?_⟩
  have hidle := h.idle_le
  rw [idle_release, maxIdle_release]
  split
  · exact hidle
  · omega

/-- The pool with so many empty stacks waiting. -/
def withIdle (pool : StackPool) (n : Nat) : StackPool := { pool with free := List.replicate n [] }

@[simp] theorem idle_withIdle (pool : StackPool) (n : Nat) : (pool.withIdle n).idle = n :=
  List.length_replicate

@[simp] theorem maxIdle_withIdle (pool : StackPool) (n : Nat) :
    (pool.withIdle n).maxIdle = pool.maxIdle := rfl

theorem atRest_withIdle {pool : StackPool} {n : Nat} (h : n ≤ pool.maxIdle) :
    (pool.withIdle n).AtRest := by
  refine ⟨fun stack hstack => ?_, ?_⟩
  · exact List.eq_of_mem_replicate hstack
  · simpa using h

/-- Of a pool at rest only the number of stacks matters. -/
theorem AtRest.eq_withIdle {pool : StackPool} (h : pool.AtRest) :
    pool = pool.withIdle pool.idle := by
  have hfree : pool.free = List.replicate pool.free.length [] :=
    List.eq_replicate_iff.mpr ⟨rfl, h.idleEmpty⟩
  rw [withIdle, idle, ← hfree]

theorem acquire_withIdle (pool : StackPool) (n : Nat) :
    (pool.withIdle n).acquire = ([], pool.withIdle (n - 1)) := by
  cases n with
  | zero => rfl
  | succ n => rfl

theorem release_withIdle (pool : StackPool) {n : Nat} (h : n ≤ pool.maxIdle) (stack : Stack) :
    (pool.withIdle n).release stack = pool.withIdle (min pool.maxIdle (n + 1)) := by
  unfold release isFull
  rw [idle_withIdle, maxIdle_withIdle]
  by_cases hfull : pool.maxIdle ≤ n
  · have hn : min pool.maxIdle (n + 1) = n := by omega
    simp [hfull, hn]
  · have hn : min pool.maxIdle (n + 1) = n + 1 := by omega
    simp [hfull, hn, withIdle, cleared, List.replicate_succ]

/-- Nested steps make the pool as large as the most stacks that were out at once, if so many may
wait. -/
theorem Nested.after_withIdle {steps : List Step} (h : Nested steps) (pool : StackPool) {n : Nat}
    (hn : n ≤ pool.maxIdle) :
    (pool.withIdle n).after steps =
      pool.withIdle (min pool.maxIdle (max n (deepest steps))) := by
  induction h generalizing n with
  | nil =>
    have hsame : min pool.maxIdle (max n (deepest [])) = n := by
      simp only [deepest, deepestFrom]
      omega
    rw [after, hsame]
  | append h _ ih ih' =>
    rw [after_append, ih hn, ih' (Nat.min_le_left _ _), h.deepest_append]
    congr 1
    omega
  | within h ih =>
    rw [after, acquire_withIdle, after_append, ih (by omega), after, release_withIdle _ (by omega),
      after, h.deepest_within]
    congr 1
    omega

/-- **What nested steps do to a pool at rest.** -/
theorem Nested.after_eq {steps : List Step} (h : Nested steps) {pool : StackPool}
    (hpool : pool.AtRest) :
    pool.after steps = pool.withIdle (min pool.maxIdle (max pool.idle (deepest steps))) := by
  have hafter := h.after_withIdle pool hpool.idle_le
  rwa [← hpool.eq_withIdle] at hafter

theorem Nested.atRest_after {steps : List Step} (h : Nested steps) {pool : StackPool}
    (hpool : pool.AtRest) : (pool.after steps).AtRest := by
  rw [h.after_eq hpool]
  exact atRest_withIdle (Nat.min_le_left _ _)

end Abacus.StackPool
