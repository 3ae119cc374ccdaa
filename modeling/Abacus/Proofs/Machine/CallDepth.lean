import Abacus.Proofs.Machine.Congruence

/-!
# Calls inside calls

A user function looks at the number of calls in progress when it is called, and refuses the call
if there are `maxCallDepth`.  What its body calls are functions of the same kind, so that in
`UserFunction.callBy` a function is told by means of the functions that are called next.  A call
solves this equation.  It is reached by as many uses of the equation as there are levels: however
calls at a greater depth are made out, and be it as computations that never end, they are not
reached.  This is why evaluations end although functions may call each other, and themselves, as
they like.

## Main definitions

* `Run.SameAt`: computations that are the same with a number of calls in progress, and keep it
* `UserFunction.callBy`: a call, given the calls its body makes
* `UserFunction.unrolled`: calls made out to a depth

## Main results

* `UserFunction.call_eq_callBy`: the equation of calls
* `UserFunction.unrolled_sameAt`: more levels than may be in progress are never looked at
-/

namespace Abacus

/-- A run, told by what its instructions come to on a borrowed stack. -/
theorem Program.run_eq (p : Program) (env : Environment) (m : Machine) :
    p.run env m =
      let executed :=
        Exec.outcome (exec env p.instructions) ⟨m.borrowStack.1, p.tables⟩ m.borrowStack.2
      let result := executed.1.bind Frame.result
      let left := match result with
        | .ok value => executed.2.report (.finished value)
        | .error _ => executed.2
      (result, left.returnStack []) := by
  unfold Program.run Exec.outcome
  dsimp only
  rcases exec env p.instructions ⟨m.borrowStack.1, p.tables⟩ m.borrowStack.2 with
    ⟨⟨e | u, frame⟩, m'⟩
  · rfl
  · rfl

namespace Run

/-- **The same computation with so many calls in progress**, which leaves as many. -/
def SameAt {ε : Type} : Relation ε := fun calls _ x y =>
  ∀ m, m.callDepth = calls → x m = y m ∧ (y m).2.callDepth = calls

namespace SameAt

variable {calls : Nat} {ε ε' α β : Type} {x y z : Run ε α}

theorem symm (h : SameAt calls x y) : SameAt calls y x := by
  intro m hm
  obtain ⟨heq, hleft⟩ := h m hm
  rw [heq]
  exact ⟨rfl, hleft⟩

theorem trans (hxy : SameAt calls x y) (hyz : SameAt calls y z) : SameAt calls x z := by
  intro m hm
  obtain ⟨heq, -⟩ := hxy m hm
  obtain ⟨heq', hleft⟩ := hyz m hm
  exact ⟨heq.trans heq', hleft⟩

theorem answer (calls : Nat) (r : Except ε α) : SameAt calls (Run.answer r) (Run.answer r) := by
  intro m hm
  exact ⟨rfl, hm⟩

theorem bind {next next' : α → Run ε β} (hxy : SameAt calls x y)
    (hnext : ∀ a, SameAt calls (next a) (next' a)) : SameAt calls (x >>= next) (y >>= next') := by
  intro m hm
  obtain ⟨heq, hleft⟩ := hxy m hm
  rw [bind_apply, bind_apply, heq]
  rcases hy : y m with ⟨e | a, m'⟩
  · rw [hy] at hleft
    exact ⟨rfl, hleft⟩
  · rw [hy] at hleft
    exact hnext a m' hleft

theorem mapError (f : ε → ε') (hxy : SameAt calls x y) :
    SameAt calls (mapError f x) (mapError f y) := by
  intro m hm
  obtain ⟨heq, hleft⟩ := hxy m hm
  refine ⟨?_, hleft⟩
  exact congrArg (fun r : Except ε α × Machine => (r.1.mapError f, r.2)) heq

theorem inCall (hxy : SameAt (calls + 1) x y) : SameAt calls (inCall x) (inCall y) := by
  intro m hm
  obtain ⟨heq, hleft⟩ := hxy { m with callDepth := m.callDepth + 1 } (congrArg (· + 1) hm)
  refine ⟨?_, congrArg (· - 1) hleft⟩
  exact congrArg
    (fun r : Except ε α × Machine => (r.1, { r.2 with callDepth := r.2.callDepth - 1 })) heq

end SameAt

theorem congruence_sameAt : Congruence SameAt SameAt where
  answer calls _ r := SameAt.answer calls r
  bind := SameAt.bind
  answered calls _ r := SameAt.answer calls r
  called := SameAt.mapError _
  inside := fun h => h.inCall.mapError _
  run := by
    intro calls p env env' hexec m hm
    have hborrowed : m.borrowStack.2.callDepth = calls := by
      rw [Machine.callDepth_borrowStack, hm]
    obtain ⟨heq, hleft⟩ := hexec m.borrowStack.1 m.borrowStack.2 hborrowed
    refine ⟨?_, ?_⟩
    · rw [Program.run_eq, Program.run_eq, heq]
    · rw [Program.callDepth_run]
      exact hleft

end Run

namespace UserFunction

/-- **A call, given the calls that its body makes.**  It is refused if too many are in progress. -/
def callBy (g : Globals) (inner : UserFunction → Callable) (f : UserFunction) : Callable :=
  fun args => f.checked args fun m =>
    if maxCallDepth ≤ m.callDepth then refuse f.tooDeep m
    else f.evaluateBody (g.environmentWith inner) args m

/-- Calls that are made out to a depth, `deeper` being the calls from there on. -/
def unrolled (g : Globals) (deeper : UserFunction → Callable) : Nat → UserFunction → Callable
  | 0 => deeper
  | depth + 1 => callBy g (unrolled g deeper depth)

variable (g : Globals) {calls : Nat}

/-- A call has the levels that the calls in progress leave. -/
theorem call_sameAt (f : UserFunction) (args : List Float) :
    Run.SameAt calls (f.call (some g) args) (callWithin g (maxCallDepth - calls) f args) := by
  intro m hm
  obtain ⟨-, hleft⟩ :=
    Run.congruence_sameAt.callWithin g (maxCallDepth - calls) f args m hm
  refine ⟨?_, hleft⟩
  rw [← hm]
  rfl

/-- One step of a call: what its body calls has to be right with one call more in progress. -/
theorem callBy_sameAt {inner : UserFunction → Callable}
    (hinner : calls < maxCallDepth → ∀ f args,
      Run.SameAt (calls + 1) (inner f args) (callWithin g (maxCallDepth - (calls + 1)) f args))
    (f : UserFunction) (args : List Float) :
    Run.SameAt calls (f.callBy g inner args) (callWithin g (maxCallDepth - calls) f args) := by
  by_cases hcalls : calls < maxCallDepth
  · obtain ⟨levels, hlevels⟩ : ∃ levels, maxCallDepth - calls = levels + 1 :=
      ⟨maxCallDepth - (calls + 1), by omega⟩
    have hrest : maxCallDepth - (calls + 1) = levels := by omega
    rw [hlevels]
    apply Run.congruence_sameAt.checked
    have hbody : Run.SameAt calls (f.evaluateBody (g.environmentWith inner) args)
        (f.evaluateBody (g.environmentWith (callWithin g levels)) args) := by
      apply Run.congruence_sameAt.evaluateBody
      apply Run.congruence_sameAt.environmentWith
      intro f' args'
      rw [← hrest]
      exact hinner hcalls f' args'
    intro m hm
    have hfew : ¬ maxCallDepth ≤ m.callDepth := by omega
    dsimp only
    rw [if_neg hfew]
    exact hbody m hm
  · have hnone : maxCallDepth - calls = 0 := by omega
    rw [hnone]
    apply Run.congruence_sameAt.checked
    intro m hm
    have hmany : maxCallDepth ≤ m.callDepth := by omega
    dsimp only
    rw [if_pos hmany]
    exact ⟨rfl, hm⟩

/-- **The equation of calls**: a call is told by the calls that its body makes. -/
theorem call_eq_callBy (f : UserFunction) (args : List Float) :
    f.call (some g) args = f.callBy g (call (some g)) args := by
  funext m
  have hcall : Run.SameAt m.callDepth (f.call (some g) args)
      (callWithin g (maxCallDepth - m.callDepth) f args) := call_sameAt g f args
  have hcallBy : Run.SameAt m.callDepth (f.callBy g (call (some g)) args)
      (callWithin g (maxCallDepth - m.callDepth) f args) :=
    callBy_sameAt g (fun _ f' args' => call_sameAt g f' args') f args
  obtain ⟨heq, -⟩ := hcall.trans hcallBy.symm m rfl
  exact heq

/-- **More levels than may be in progress are never looked at.** -/
theorem unrolled_sameAt (deeper : UserFunction → Callable) {depth : Nat}
    (hdepth : maxCallDepth < depth + calls) (hpos : 0 < depth) (f : UserFunction)
    (args : List Float) :
    Run.SameAt calls (unrolled g deeper depth f args)
      (callWithin g (maxCallDepth - calls) f args) := by
  induction depth generalizing calls f args with
  | zero => exact absurd hpos (Nat.lt_irrefl 0)
  | succ depth ih =>
    apply callBy_sameAt
    intro hcalls f' args'
    exact ih (by omega) (by omega) f' args'

end UserFunction

/-- What names stand for at the top level, in terms of the levels that are left. -/
theorem Globals.environment_sameAt (g : Globals) :
    g.environment.Related Run.SameAt 0
      (g.environmentWith (UserFunction.callWithin g maxCallDepth)) :=
  Run.congruence_sameAt.environmentWith g fun f args => UserFunction.call_sameAt g f args

/-- The same with calls made out to a depth. -/
theorem Globals.unrolled_sameAt (g : Globals) (deeper : UserFunction → Callable) {depth : Nat}
    (hdepth : maxCallDepth < depth) :
    (g.environmentWith (UserFunction.unrolled g deeper depth)).Related Run.SameAt 0
      (g.environmentWith (UserFunction.callWithin g maxCallDepth)) :=
  Run.congruence_sameAt.environmentWith g fun f args =>
    UserFunction.unrolled_sameAt g deeper hdepth (by omega) f args

end Abacus
