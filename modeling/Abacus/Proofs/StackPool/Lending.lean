import Abacus.Proofs.StackPool.Borrowing
import Mathlib.Data.List.Induction

/-!
# Stacks in several hands

Stacks of one pool may be held by many at once, be filled by those who hold them, and come back in
any order, unlike the nested borrowing of runs.  Stacks are used again, but nobody finds this out:
whoever holds a stack reads what was pushed on it since it was acquired, and nothing else.  The
stacks that wait are empty and never more than may wait.

Stacks are numbered in the order in which they are acquired, so that a number stands for one holder
and is not used again.  What a holder ought to read is told from the dealings alone, without a pool.

## Main definitions

* `StackPool.Dealing`: what those who hold stacks do
* `StackPool.Lending`: a pool with the stacks that are held
* `StackPool.written`: what was pushed on a stack since it was acquired

## Main results

* `StackPool.Lending.Keeps.step`: one dealing
* `StackPool.lending_keeps_apart`: any dealings with a new pool
-/

namespace Abacus.StackPool

/-! ### Dealings -/

/-- What is done with the stacks of a pool.  The numbers are those of the stacks, in the order in
which they were acquired. -/
inductive Dealing where
  | acquire
  | push (number : Nat) (value : Float)
  | release (number : Nat)
deriving DecidableEq

/-- What is done after the stack with a number was acquired, if it was. -/
def sinceAcquired : Nat → List Dealing → Option (List Dealing)
  | _, [] => none
  | 0, .acquire :: later => some later
  | number + 1, .acquire :: later => sinceAcquired number later
  | number, .push _ _ :: later => sinceAcquired number later
  | number, .release _ :: later => sinceAcquired number later

/-- The values that are pushed on the stack with a number. -/
def pushedOn (number : Nat) (dealings : List Dealing) : List Float :=
  dealings.filterMap fun
    | .push other value => if other = number then some value else none
    | _ => none

/-- **What was pushed on a stack since it was acquired**, the first value first, if the stack is
held.  Neither the pool nor the other stacks have a part in this. -/
def written (number : Nat) (dealings : List Dealing) : Option (List Float) :=
  (sinceAcquired number dealings).bind fun later =>
    if .release number ∈ later then none else some (pushedOn number later)

theorem sinceAcquired_snoc (number : Nat) (dealings : List Dealing) (last : Dealing) :
    sinceAcquired number (dealings ++ [last]) =
      ((sinceAcquired number dealings).map (· ++ [last])).or
        (if last = .acquire ∧ number = dealings.count .acquire then some [] else none) := by
  induction dealings generalizing number with
  | nil => cases last <;> cases number <;> simp [sinceAcquired]
  | cons first dealings ih =>
    cases first with
    | acquire =>
      cases number with
      | zero => simp [sinceAcquired]
      | succ number => simp [sinceAcquired, ih]
    | push other value => simp [sinceAcquired, ih]
    | release other => simp [sinceAcquired, ih]

/-- A stack that has been acquired has one of the numbers given so far. -/
theorem lt_count_of_sinceAcquired {number : Nat} {dealings later : List Dealing}
    (h : sinceAcquired number dealings = some later) : number < dealings.count .acquire := by
  induction dealings generalizing number with
  | nil => simp [sinceAcquired] at h
  | cons first dealings ih =>
    cases first with
    | acquire =>
      cases number with
      | zero => simp
      | succ number => simpa using ih h
    | push other value => simpa using ih h
    | release other => simpa using ih h

variable (number : Nat) (dealings : List Dealing)

theorem written_acquire :
    written number (dealings ++ [.acquire]) =
      if number = dealings.count .acquire then some [] else written number dealings := by
  rw [written, sinceAcquired_snoc, written]
  cases h : sinceAcquired number dealings with
  | none => by_cases hnumber : number = dealings.count .acquire <;> simp [hnumber, pushedOn]
  | some later =>
    have hlt := lt_count_of_sinceAcquired h
    simp [pushedOn, Nat.ne_of_lt hlt]

theorem written_push (other : Nat) (value : Float) :
    written number (dealings ++ [.push other value]) =
      if other = number then (written number dealings).map (· ++ [value])
      else written number dealings := by
  rw [written, sinceAcquired_snoc, written]
  cases sinceAcquired number dealings with
  | none => simp
  | some later =>
    by_cases hother : other = number <;> by_cases hreleased : Dealing.release number ∈ later <;>
      simp [pushedOn, hother, hreleased]

theorem written_release (other : Nat) :
    written number (dealings ++ [.release other]) =
      if other = number then none else written number dealings := by
  rw [written, sinceAcquired_snoc, written]
  cases sinceAcquired number dealings with
  | none => simp
  | some later =>
    by_cases hother : other = number
    · simp [hother]
    · simp [pushedOn, hother, Ne.symm hother]

/-! ### A pool and the stacks it has lent -/

/-- A pool and the stacks it has lent, in the order in which they were acquired; one that has been
given back has left its place. -/
structure Lending where
  pool : StackPool
  lent : List (Option Stack)

namespace Lending

/-- Nothing has been lent yet. -/
def ofPool (pool : StackPool) : Lending := ⟨pool, []⟩

/-- The stack with a number, if it is held. -/
def stack? (l : Lending) (number : Nat) : Option Stack := l.lent[number]?.join

/-- What the holder of a stack reads, the value that was pushed first in front. -/
def read? (l : Lending) (number : Nat) : Option (List Float) :=
  (l.stack? number).map List.reverse

/-- **One dealing.**  Nothing can be done with a stack that nobody holds. -/
def step (l : Lending) : Dealing → Lending
  | .acquire => ⟨l.pool.acquire.2, l.lent ++ [some l.pool.acquire.1]⟩
  | .push number value =>
    match l.stack? number with
    | none => l
    | some stack => { l with lent := l.lent.set number (some (value :: stack)) }
  | .release number =>
    match l.stack? number with
    | none => l
    | some stack => ⟨l.pool.release stack, l.lent.set number none⟩

/-- Dealings one after another. -/
def after (l : Lending) (dealings : List Dealing) : Lending := dealings.foldl step l

theorem after_snoc (l : Lending) (dealings : List Dealing) (last : Dealing) :
    l.after (dealings ++ [last]) = (l.after dealings).step last := List.foldl_append

variable {l : Lending} {number : Nat}

theorem lt_length_of_stack? {stack : Stack} (h : l.stack? number = some stack) :
    number < l.lent.length := by
  refine Nat.lt_of_not_le fun hle => ?_
  simp [stack?, List.getElem?_eq_none hle] at h

theorem stack?_set (entry : Option Stack) (pool : StackPool) {other : Nat}
    (hother : other < l.lent.length) :
    stack? ⟨pool, l.lent.set other entry⟩ number =
      if other = number then entry else l.stack? number := by
  simp only [stack?, List.getElem?_set]
  by_cases h : other = number
  · subst h
    simp [hother]
  · simp [h]

theorem stack?_append (entry : Option Stack) (pool : StackPool) :
    stack? ⟨pool, l.lent ++ [entry]⟩ number =
      if number = l.lent.length then entry else l.stack? number := by
  rw [stack?, stack?, List.getElem?_append]
  rcases Nat.lt_trichotomy number l.lent.length with hlt | rfl | hgt
  · rw [if_pos hlt, if_neg (Nat.ne_of_lt hlt)]
  · simp
  · have hbehind : 0 < number - l.lent.length := Nat.sub_pos_of_lt hgt
    rw [if_neg (Nat.not_lt.mpr (Nat.le_of_lt hgt)), if_neg (Nat.ne_of_gt hgt),
      List.getElem?_eq_none (Nat.le_of_lt hgt), List.getElem?_eq_none hbehind]

theorem pool_step_push (other : Nat) (value : Float) :
    (l.step (.push other value)).pool = l.pool := by
  rw [step]
  split
  · rfl
  · rfl

/-- Each stack that is acquired has a place of its own, and no place is ever taken away. -/
theorem length_lent_step (next : Dealing) :
    (l.step next).lent.length = l.lent.length + [next].count .acquire := by
  cases next with
  | acquire => simp [step]
  | push other value =>
    rw [step]
    split
    · rfl
    · simp
  | release other =>
    rw [step]
    split
    · rfl
    · simp

/-! What a dealing does to what is read is what it does to what was written. -/

theorem read?_step_acquire :
    (l.step .acquire).read? number =
      if number = l.lent.length then some l.pool.acquire.1.reverse else l.read? number := by
  rw [step, read?, stack?_append, read?]
  split
  · rfl
  · rfl

theorem read?_step_push (other : Nat) (value : Float) :
    (l.step (.push other value)).read? number =
      if other = number then (l.read? number).map (· ++ [value]) else l.read? number := by
  rw [step]
  cases h : l.stack? other with
  | none =>
    dsimp only
    split
    · next hother =>
      subst hother
      simp [read?, h]
    · rfl
  | some stack =>
    dsimp only
    rw [read?, stack?_set _ _ (lt_length_of_stack? h)]
    split
    · next hother =>
      subst hother
      simp [read?, h]
    · rfl

theorem read?_step_release (other : Nat) :
    (l.step (.release other)).read? number =
      if other = number then none else l.read? number := by
  rw [step]
  cases h : l.stack? other with
  | none =>
    dsimp only
    split
    · next hother =>
      subst hother
      simp [read?, h]
    · rfl
  | some stack =>
    dsimp only
    rw [read?, stack?_set _ _ (lt_length_of_stack? h)]
    split
    · rfl
    · rfl

/-! ### What is kept -/

/-- **What a pool with limit `maxIdle` keeps to** after some dealings: every holder reads what was
written, and what waits is empty and not too much. -/
structure Keeps (maxIdle : Nat) (l : Lending) (dealings : List Dealing) : Prop where
  length_lent : l.lent.length = dealings.count .acquire
  read? (number : Nat) : l.read? number = written number dealings
  atRest : l.pool.AtRest
  maxIdle : l.pool.maxIdle = maxIdle

theorem keeps_new (maxIdle capacity : Nat) : Keeps maxIdle (ofPool (.new maxIdle capacity)) [] :=
  ⟨rfl, fun _ => rfl, atRest_new maxIdle capacity, rfl⟩

variable {maxIdle : Nat} {dealings : List Dealing}

/-- **One dealing.** -/
theorem Keeps.step (h : l.Keeps maxIdle dealings) (next : Dealing) :
    (l.step next).Keeps maxIdle (dealings ++ [next]) := by
  obtain ⟨hlength, hread, hatRest, hmax⟩ := h
  have hlength' : (l.step next).lent.length = (dealings ++ [next]).count .acquire := by
    rw [length_lent_step, hlength, List.count_append]
  cases next with
  | acquire =>
    obtain ⟨hempty, hleft⟩ := hatRest.acquire
    refine ⟨hlength', fun number => ?_, hleft, (maxIdle_acquire l.pool).trans hmax⟩
    rw [read?_step_acquire, written_acquire, hlength, hempty, hread]
    rfl
  | push other value =>
    have hpool := pool_step_push (l := l) other value
    refine ⟨hlength', fun number => ?_, hpool ▸ hatRest, hpool ▸ hmax⟩
    rw [read?_step_push, written_push, hread]
  | release other =>
    refine ⟨hlength', fun number => ?_, ?_, ?_⟩
    · rw [read?_step_release, written_release, hread]
    · rw [Lending.step]
      split
      · exact hatRest
      · exact hatRest.release _
    · rw [Lending.step]
      split
      · exact hmax
      · rw [maxIdle_release, hmax]

theorem Keeps.after (h : l.Keeps maxIdle []) (dealings : List Dealing) :
    (l.after dealings).Keeps maxIdle dealings := by
  -- Induction from the end: the last dealing comes after what the others have left.
  induction dealings using List.reverseRecOn with
  | nil => exact h
  | append_singleton dealings last ih =>
    rw [after_snoc]
    exact ih.step last

end Lending

/-- **Nobody finds out that stacks are used again.**  Whatever is done with the stacks of a new
pool, the next stack is empty, and whoever holds one reads what was pushed on it since it was
acquired.  The stacks that wait are empty and no more than may wait.  There is one less of them when
a stack is acquired, if there is any, and one more when a stack that is held comes back, if it may
wait. -/
theorem lending_keeps_apart (maxIdle capacity : Nat) (dealings : List Dealing) :
    let l := (Lending.ofPool (.new maxIdle capacity)).after dealings
    (l.step .acquire).read? (dealings.count .acquire) = some [] ∧
      (∀ number, l.read? number = written number dealings) ∧
      l.pool.IdleEmpty ∧
      l.pool.idle ≤ maxIdle ∧
      (l.step .acquire).pool.idle = (if l.pool.idle = 0 then 0 else l.pool.idle - 1) ∧
      (∀ number value, (l.step (.push number value)).pool.idle = l.pool.idle) ∧
      ∀ number, (l.read? number).isSome →
        (l.step (.release number)).pool.idle =
          if l.pool.idle = maxIdle then maxIdle else l.pool.idle + 1 := by
  intro l
  have hkeeps : l.Keeps maxIdle dealings := (Lending.keeps_new maxIdle capacity).after dealings
  have hidle : l.pool.idle ≤ maxIdle := hkeeps.maxIdle ▸ hkeeps.atRest.idle_le
  refine ⟨?_, hkeeps.read?, hkeeps.atRest.idleEmpty, hidle, ?_, fun number value => ?_,
    fun number hheld => ?_⟩
  · rw [(hkeeps.step .acquire).read?, written_acquire, if_pos rfl]
  · rw [Lending.step, idle_acquire]
    split
    · omega
    · rfl
  · rw [Lending.pool_step_push]
  · obtain ⟨stack, hstack⟩ : ∃ stack, l.stack? number = some stack :=
      Option.isSome_iff_exists.mp (by simpa [Lending.read?] using hheld)
    rw [Lending.step, hstack, idle_release, hkeeps.maxIdle]
    by_cases hfull : l.pool.idle = maxIdle
    · rw [if_pos hfull, if_pos (Nat.le_of_eq hfull.symm), hfull]
    · rw [if_neg hfull, if_neg (by omega)]

/-- Three stacks of a pool in which one may wait: the first comes back with values on it, and is
handed out again as the third. -/
theorem lending_keeps_apart_three :
    let dealings : List Dealing :=
      [.acquire, .push 0 1.0, .acquire, .push 1 2.0, .push 0 3.0, .release 0, .acquire,
        .push 2 4.0, .push 1 5.0]
    let l := (Lending.ofPool (.new 1 8)).after dealings
    l.read? 0 = none ∧ l.read? 1 = some [2.0, 5.0] ∧ l.read? 2 = some [4.0] ∧
      (l.step (.release 1)).pool.idle = 1 := by
  intro dealings l
  obtain ⟨-, hread, -, -, -, -, hrelease⟩ := lending_keeps_apart 1 8 dealings
  exact ⟨hread 0, hread 1, hread 2, hrelease 1 rfl⟩

end Abacus.StackPool
