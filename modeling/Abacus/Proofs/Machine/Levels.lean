import Abacus.Proofs.Machine.CallDepth
import Abacus.Proofs.Machine.Reentrancy

/-!
# More levels

An evaluation that has more levels for calls answers the same as one that has fewer, unless that
one fails because a call was refused for want of levels.  What a call makes of its levels does not
depend on how many calls are in progress: it counts them only once, to know how many levels there
are.

## Main definitions

* `RuntimeError.IsTooDeep`: the failure of a call for which there was no level
* `Run.SameUnless`: computations that are the same unless the first one fails in a certain way
* `Run.Steady`: computations that do not depend on the number of calls in progress

## Main results

* `UserFunction.callWithin_sameUnless`: a call with more levels
* `UserFunction.call_or_isTooDeep`: a call, and what its body is in the definitions alone
-/

namespace Abacus

/-- **There was no level for a call**, here or in a call that was made from here. -/
def RuntimeError.IsTooDeep (e : RuntimeError) : Prop :=
  ∃ f : UserFunction, e.cause = .call f.tooDeep

/-- The same of an error that a function answers. -/
def FunctionError.IsTooDeep (e : FunctionError) : Prop := e.toRuntime.IsTooDeep

namespace Run

/-! ### Computations that are the same unless they fail -/

/-- **The same computation**, unless the first one fails in a certain way. -/
def SameUnless {ε : Type} (fails : ε → Prop) : Relation ε := fun _ _ x y =>
  ∀ m, x m = y m ∨ ∃ e, (x m).1 = .error e ∧ fails e

namespace SameUnless

variable {ε ε' α β : Type} {fails : ε → Prop} {fails' : ε' → Prop} {calls : Nat} {x y : Run ε α}

theorem answer (fails : ε → Prop) (calls : Nat) (r : Except ε α) :
    SameUnless fails calls (Run.answer r) (Run.answer r) := fun _ => .inl rfl

theorem bind {next next' : α → Run ε β} (hxy : SameUnless fails calls x y)
    (hnext : ∀ a, SameUnless fails calls (next a) (next' a)) :
    SameUnless fails calls (x >>= next) (y >>= next') := by
  intro m
  rw [bind_apply, bind_apply]
  rcases hxy m with heq | ⟨e, he, hfails⟩
  · rw [heq]
    rcases y m with ⟨e | a, m'⟩
    · exact .inl rfl
    · exact hnext a m'
  -- what comes after a failure is not begun
  · rcases hx : x m with ⟨r, m'⟩
    rw [hx] at he
    change r = .error e at he
    subst he
    exact .inr ⟨e, rfl, hfails⟩

theorem mapError {f : ε → ε'} (hf : ∀ e, fails e → fails' (f e))
    (hxy : SameUnless fails calls x y) :
    SameUnless fails' calls (mapError f x) (mapError f y) := by
  intro m
  rcases hxy m with heq | ⟨e, he, hfails⟩
  · exact .inl (congrArg (fun r : Except ε α × Machine => (r.1.mapError f, r.2)) heq)
  · refine .inr ⟨f e, ?_, hf e hfails⟩
    change (x m).1.mapError f = _
    rw [he]
    rfl

theorem inCall (hxy : SameUnless fails (calls + 1) x y) :
    SameUnless fails calls (inCall x) (inCall y) := by
  intro m
  rcases hxy { m with callDepth := m.callDepth + 1 } with heq | hfails
  · left
    exact congrArg
      (fun r : Except ε α × Machine => (r.1, { r.2 with callDepth := r.2.callDepth - 1 })) heq
  · exact .inr hfails

end SameUnless

/-- Evaluations keep computations the same, unless there is no level for a call. -/
theorem congruence_sameUnless :
    Congruence (SameUnless RuntimeError.IsTooDeep) (SameUnless FunctionError.IsTooDeep) where
  answer calls _ r := SameUnless.answer _ calls r
  bind := SameUnless.bind
  answered calls _ r := SameUnless.answer _ calls r
  called := SameUnless.mapError fun _ he => he
  inside := fun h => h.inCall.mapError fun _ he => he
  run := by
    intro calls p env env' hexec m
    rw [Program.run_eq, Program.run_eq]
    rcases hexec m.borrowStack.1 m.borrowStack.2 with heq | ⟨e, he, hfails⟩
    · rw [heq]
      exact .inl rfl
    · refine .inr ⟨e, ?_, hfails⟩
      dsimp only
      rw [he]
      rfl

/-! ### Computations that do not count the calls in progress -/

/-- **The computation does not depend on the number of calls in progress**: it uses the machine in
the same way whatever this is. -/
def Steady {ε α : Type} (x : Run ε α) : Prop := ∃ steps r, ∀ calls, Uses x calls steps r

theorem Steady.mapError {ε ε' α : Type} {x : Run ε α} (h : x.Steady) (f : ε → ε') :
    (mapError f x).Steady := by
  obtain ⟨steps, r, huses⟩ := h
  rw [mapError_eq_andThen]
  exact ⟨_, _, fun calls => (huses calls).andThen (.answer _)⟩

theorem Steady.bind {ε α β : Type} {x : Run ε α} {next : α → Run ε β} (h : x.Steady)
    (hnext : ∀ a, (next a).Steady) : (x >>= next).Steady := by
  obtain ⟨steps, r, huses⟩ := h
  rw [bind_eq_andThen]
  cases r with
  | error e => exact ⟨_, _, fun calls => (huses calls).andThen (.answer _)⟩
  | ok a =>
    obtain ⟨later, r', hlater⟩ := hnext a
    exact ⟨_, _, fun calls => (huses calls).andThen (hlater calls)⟩

theorem congruence_steady :
    Congruence (fun _ _ x _ => x.Steady) (fun _ _ x _ => x.Steady) where
  answer _ _ r := ⟨[], r, fun _ => .answer r⟩
  bind := Steady.bind
  answered _ _ r := ⟨[], r, fun _ => .answer r⟩
  called := fun h => h.mapError _
  inside := by
    intro calls α x y h
    obtain ⟨steps, r, huses⟩ := h
    exact Steady.mapError ⟨steps, r, fun calls => (huses (calls + 1)).inCall⟩ _
  run := by
    intro calls p env env' hexec
    obtain ⟨steps, r, huses⟩ := hexec []
    exact ⟨_, _, fun calls => (huses calls).run⟩

/-- On machines at rest it answers the same. -/
theorem Steady.fst_eq {ε α : Type} {x : Run ε α} (h : x.Steady) {m m' : Machine}
    (hm : m.pool.AtRest) (hm' : m'.pool.AtRest) : (x m).1 = (x m').1 := by
  obtain ⟨steps, r, huses⟩ := h
  obtain ⟨hanswer, -⟩ := (huses m.callDepth).effect rfl hm
  obtain ⟨hanswer', -⟩ := (huses m'.callDepth).effect rfl hm'
  exact hanswer.trans hanswer'.symm

end Run

/-! ### Calls -/

namespace UserFunction

variable (g : Globals) {f : UserFunction} {args : List Float}

theorem callWithin_zero (h : args.length = f.parameters.length) :
    callWithin g 0 f args = refuse f.tooDeep := if_pos h

theorem callWithin_succ (h : args.length = f.parameters.length) (levels : Nat) :
    callWithin g (levels + 1) f args =
      f.evaluateBody (g.environmentWith (callWithin g levels)) args := if_pos h

theorem callWithin_of_length_ne (h : args.length ≠ f.parameters.length) (levels : Nat) :
    callWithin g levels f args = refuse (.arity f.name f.parameters.length args.length) := by
  cases levels with
  | zero => exact if_neg h
  | succ levels => exact if_neg h

/-- **A call with more levels** is the same, unless it fails for want of levels with fewer. -/
theorem callWithin_sameUnless {levels more calls : Nat} (h : levels ≤ more) (f : UserFunction)
    (args : List Float) :
    Run.SameUnless FunctionError.IsTooDeep calls (callWithin g levels f args)
      (callWithin g more f args) := by
  -- Induction on the levels of the one that has fewer.
  induction levels generalizing more calls f args with
  | zero =>
    intro m
    by_cases hargs : args.length = f.parameters.length
    · rw [callWithin_zero g hargs]
      exact .inr ⟨.fault f.tooDeep, rfl, f, rfl⟩
    · rw [callWithin_of_length_ne g hargs, callWithin_of_length_ne g hargs]
      exact .inl rfl
  | succ levels ih =>
    obtain ⟨more, rfl⟩ : ∃ n, more = n + 1 := Nat.exists_eq_add_one.mpr (by omega)
    apply Run.congruence_sameUnless.checked
    apply Run.congruence_sameUnless.evaluateBody
    apply Run.congruence_sameUnless.environmentWith
    intro f' args'
    exact ih (Nat.le_of_succ_le_succ h) f' args'

/-- A formula whose calls have so many levels does not count the calls in progress. -/
theorem steady_callWithin (levels : Nat) (formula : Formula) :
    (formula.evaluate (g.environmentWith (callWithin g levels))).Steady := by
  have henv : (g.environmentWith (callWithin g levels)).Related (fun _ _ x _ => x.Steady) 0
      (g.environmentWith (callWithin g levels)) := by
    apply Run.congruence_steady.environmentWith
    intro f args
    exact @Run.Congruence.callWithin _ _ Run.congruence_steady 0 g levels f args
  exact Run.congruence_steady.formula henv formula

/-- **A call is the evaluation of its body**, on whatever machine each of them takes place, unless
the call fails for want of levels.  The body may be any formula that has the parameters filled
in. -/
theorem call_or_isTooDeep {f : UserFunction} {args : List Float} {filled : Formula}
    (hargs : args.length = f.parameters.length)
    (hfilled : ∀ env : Environment,
      f.body.evaluate (env.bind (.ofList (f.parameters.zip args))) = filled.evaluate env)
    {m top : Machine} (hm : m.pool.AtRest) (htop : top.pool.AtRest) (hcalls : top.callDepth = 0) :
    (f.call (some g) args m).1 =
        (filled.evaluate g.environment top).1.mapError FunctionError.runtime ∨
      ∃ e, (f.call (some g) args m).1 = .error e ∧ e.IsTooDeep := by
  change (callWithin g (maxCallDepth - m.callDepth) f args m).1 = _ ∨
    ∃ e, (callWithin g (maxCallDepth - m.callDepth) f args m).1 = .error e ∧ _
  cases hlevels : maxCallDepth - m.callDepth with
  | zero =>
    rw [callWithin_zero g hargs]
    exact .inr ⟨.fault f.tooDeep, rfl, f, rfl⟩
  | succ levels =>
    -- the body on the machine of the call, with one call more in progress
    let inside : Machine := { m with callDepth := m.callDepth + 1 }
    have hcall : (callWithin g (levels + 1) f args m).1 =
        (filled.evaluate (g.environmentWith (callWithin g levels)) inside).1.mapError
          FunctionError.runtime := by
      rw [callWithin_succ g hargs, evaluateBody, hfilled]
      rfl
    have hmore : Run.SameUnless RuntimeError.IsTooDeep 0
        (filled.evaluate (g.environmentWith (callWithin g levels)))
        (filled.evaluate (g.environmentWith (callWithin g maxCallDepth))) := by
      apply Run.congruence_sameUnless.formula
      apply Run.congruence_sameUnless.environmentWith
      intro f' args'
      exact callWithin_sameUnless g (by omega) f' args'
    rw [hcall]
    rcases hmore inside with heq | ⟨e, he, hdeep⟩
    · -- with all levels there are, it is the same on both machines
      have hsteady := (steady_callWithin g maxCallDepth filled).fst_eq (m := inside) hm htop
      obtain ⟨hlevels, -⟩ :=
        Run.congruence_sameAt.formula g.environment_sameAt filled top hcalls
      rw [heq, hsteady, hlevels]
      exact .inl rfl
    · rw [he]
      exact .inr ⟨.runtime e, rfl, hdeep⟩

end UserFunction

end Abacus
