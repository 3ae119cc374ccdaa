import Abacus.Proofs.Program.Execution

/-!
# Telling the two orders of calls apart

Calls that are not recorded in the order in which they are carried out can be noticed.  The two
lists have a first difference, up to which a run carries out what evaluating carries out.  There an
environment refuses the call, saying which function was to be called with how many arguments, and
the two say different things.  All that is needed is that the expression gets so far, which it does
if it has a value at all.

Such an environment has to know when to refuse.  It may count the calls it has answered; it need
not if no function is called twice, and is then one of functions of their arguments alone.

## Main definitions

* `Environment.ofFunctions`: names that stand for values and for functions of their arguments
* `Environment.refusing`: the same, but for calls that are refused
* `Expr.HasValue`: an expression that has a value in some such environment

## Main results

* `Exec.outcome_refusing`: instructions that are carried out with either of two lists of calls
* `Program.exists_run_ne_evaluate`, `Program.exists_functions_run_ne_evaluate`: the two told apart
-/

namespace Abacus

/-- Two lists of one length that are not the same have a first difference. -/
theorem exists_first_difference {α : Type} {l l' : List α} (hlength : l.length = l'.length)
    (hne : l ≠ l') :
    ∃ before a after b after', l = before ++ a :: after ∧ l' = before ++ b :: after' ∧ a ≠ b := by
  classical
  induction l generalizing l' with
  | nil => exact absurd (List.length_eq_zero_iff.mp hlength.symm).symm hne
  | cons x l ih =>
    rcases l' with _ | ⟨y, l'⟩
    · cases hlength
    by_cases hxy : x = y
    · subst hxy
      have hne' : l ≠ l' := fun heq => hne (by rw [heq])
      obtain ⟨before, a, after, b, after', rfl, rfl, hab⟩ := ih (Nat.succ.inj hlength) hne'
      exact ⟨x :: before, a, after, b, after', rfl, rfl, hab⟩
    · exact ⟨[], x, l, y, l', rfl, rfl, hxy⟩

/-! ### Environments of functions -/

namespace Environment

variable (values : String → Option Float)
  (functions : String → Option (List Float → Except FunctionError Float))

/-- Names that stand for values, and names that stand for functions of their arguments alone. -/
def ofFunctions : Environment where
  value? := values
  function? name := (functions name).map Callable.ofFunction

theorem agree_ofFunctions :
    (ofFunctions values functions).Agree (ofFunctions values functions) := by
  refine ⟨fun _ => rfl, fun name => ?_⟩
  show Option.Rel _ ((functions name).map _) ((functions name).map _)
  cases functions name with
  | none => exact .none
  | some f => exact .some fun args => .answer (answers_refl (f args))

/-- **The same environment, but for calls that are refused**, told by the name and by a number that
each call answered changes.  A refusal gives the name and the number of arguments. -/
def refusing (refuses : String → Nat → Bool) (count : Nat → Nat) : Environment where
  value? := values
  function? name := (functions name).map fun f args m =>
    if refuses name m.callDepth then (.error (.fault (.arity name 0 args.length)), m)
    else (f args, { m with callDepth := count m.callDepth })

variable (refuses : String → Nat → Bool) (count : Nat → Nat)

theorem agree_refusing : (refusing values functions refuses count).Agree
    (refusing values functions refuses count) := by
  refine ⟨fun _ => rfl, fun name => ?_⟩
  show Option.Rel _ ((functions name).map _) ((functions name).map _)
  cases functions name with
  | none => exact .none
  | some f =>
    refine .some fun args m m' hm => ?_
    dsimp only
    rw [hm.callDepth]
    by_cases hrefused : refuses name m'.callDepth = true
    · rw [if_pos hrefused, if_pos hrefused]
      exact ⟨.error _, hm⟩
    · rw [if_neg hrefused, if_neg hrefused]
      exact ⟨answers_refl _, hm.idleEmpty, rfl⟩

/-- Refusals told by the name alone make an environment of functions of their arguments alone. -/
theorem refusing_eq_ofFunctions (refuses : String → Bool) :
    refusing values functions (fun name _ => refuses name) id =
      ofFunctions values fun name => (functions name).map fun f args =>
        if refuses name then .error (.fault (.arity name 0 args.length)) else f args := by
  unfold refusing ofFunctions
  congr
  funext name
  dsimp only
  cases functions name with
  | none => rfl
  | some f =>
    simp only [Option.map_some, Option.some.injEq]
    funext args m
    by_cases hrefused : refuses name = true
    · simp only [Callable.ofFunction, Run.answer, if_pos hrefused]
    · simp only [Callable.ofFunction, Run.answer, if_neg hrefused, id]

end Environment

/-- **The expression has a value** in some environment of functions. -/
def Expr.HasValue (e : Expr) : Prop :=
  ∃ values functions m value,
    (e.evaluate (.ofFunctions values functions) m).1 = .ok value

/-- What a refusal says. -/
def CallSite.refusal (site : CallSite) : RuntimeError :=
  .here (.call (.arity site.name 0 site.arguments))

theorem CallSite.refusal_injective {site site' : CallSite} (h : site.refusal = site'.refusal) :
    site = site' := by
  rcases site with ⟨name, arguments⟩
  rcases site' with ⟨name', arguments'⟩
  cases h
  rfl

/-! ### Carrying out with either list of calls -/

namespace Exec

open Environment

/-- An instruction other than a call takes no notice of the functions, of the calls that are left,
or of the machine. -/
theorem outcome_step_of_ne_call {env : Environment} (env' : Environment) {i : Instruction}
    (hi : i ≠ .call) {stack : Stack} {values : List Float} {names : List String}
    {calls : List CallSite} {frame : Frame} {m m₁ : Machine}
    (h : outcome (step env i) ⟨stack, ⟨values, names, calls⟩⟩ m = (.ok frame, m₁))
    (hvalues : env.value? = env'.value?) :
    ∃ stack' values' names', frame = ⟨stack', ⟨values', names', calls⟩⟩ ∧ m₁ = m ∧
      ∀ calls' m', outcome (step env' i) ⟨stack, ⟨values, names, calls'⟩⟩ m' =
        (.ok ⟨stack', ⟨values', names', calls'⟩⟩, m') := by
  cases i with
  | num =>
    rcases values with _ | ⟨value, values⟩
    · cases h
    · cases h
      exact ⟨_, _, _, rfl, rfl, fun _ _ => rfl⟩
  | var =>
    rcases names with _ | ⟨name, names⟩
    · cases h
    simp only [outcome_var, Expr.evaluate, hvalues] at h ⊢
    cases hvalue : env'.value? name with
    | none =>
      rw [hvalue] at h
      cases h
    | some value =>
      rw [hvalue] at h
      cases h
      exact ⟨_, _, _, rfl, rfl, fun _ _ => rfl⟩
  | operator op =>
    rcases stack with _ | ⟨y, _ | ⟨x, stack⟩⟩
    · cases h
    · cases h
    simp only [outcome_operator] at h ⊢
    cases hvalue : op.apply x y with
    | error e =>
      rw [hvalue] at h
      cases h
    | ok value =>
      rw [hvalue] at h
      cases h
      exact ⟨_, _, _, rfl, rfl, fun _ _ => rfl⟩
  | neg =>
    rcases stack with _ | ⟨x, stack⟩
    · cases h
    · cases h
      exact ⟨_, _, _, rfl, rfl, fun _ _ => rfl⟩
  | call => exact absurd rfl hi

section Refusing

variable {values : String → Option Float}
  {functions : String → Option (List Float → Except FunctionError Float)}
  {refuses : String → Nat → Bool} {count : Nat → Nat} {stack : Stack} {numbers : List Float}
  {names : List String} {calls : List CallSite} {site : CallSite} {m m₁ : Machine}

/-- A call that is answered has found a function and its arguments. -/
theorem exists_of_outcome_call_ok {frame : Frame}
    (h : outcome (step (ofFunctions values functions) .call)
      ⟨stack, ⟨numbers, names, site :: calls⟩⟩ m = (.ok frame, m₁)) :
    ∃ f value, functions site.name = some f ∧ ¬ stack.length < site.arguments ∧
      f (stack.take site.arguments).reverse = .ok value ∧
      frame = ⟨value :: stack.drop site.arguments, ⟨numbers, names, calls⟩⟩ := by
  rw [outcome_step_call] at h
  cases hf : functions site.name with
  | none =>
    simp only [ofFunctions, hf] at h
    cases h
  | some f =>
    simp only [ofFunctions, hf, Option.map_some] at h
    by_cases hstack : stack.length < site.arguments
    · rw [if_pos hstack] at h
      cases h
    rw [if_neg hstack] at h
    obtain ⟨value, m₂, hvalue, h⟩ := Run.exists_of_bind_eq_ok h
    cases hanswer : f (stack.take site.arguments).reverse with
    | error e =>
      simp only [Callable.ofFunction, hanswer] at hvalue
      cases hvalue
    | ok value' =>
      simp only [Callable.ofFunction, hanswer] at hvalue
      cases hvalue
      cases h
      exact ⟨f, value, rfl, hstack, hanswer, rfl⟩

/-- The same call is answered alike where it is not refused. -/
theorem outcome_call_answered {f : List Float → Except FunctionError Float} {value : Float}
    (hf : functions site.name = some f) (hstack : ¬ stack.length < site.arguments)
    (hvalue : f (stack.take site.arguments).reverse = .ok value)
    (hanswered : refuses site.name m.callDepth = false) :
    outcome (step (refusing values functions refuses count) .call)
        ⟨stack, ⟨numbers, names, site :: calls⟩⟩ m =
      (.ok ⟨value :: stack.drop site.arguments, ⟨numbers, names, calls⟩⟩,
        { m with callDepth := count m.callDepth }) := by
  rw [outcome_step_call]
  simp only [refusing, hf, Option.map_some, if_neg hstack, Run.bind_apply, Run.mapError,
    StateT.run, ExceptT.run, hanswered, hvalue]
  rfl

/-- A call that is refused ends the run, with what it asked for. -/
theorem outcome_call_refused {f : List Float → Except FunctionError Float}
    (hf : functions site.name = some f) (hstack : ¬ stack.length < site.arguments)
    (hrefused : refuses site.name m.callDepth = true) :
    outcome (step (refusing values functions refuses count) .call)
        ⟨stack, ⟨numbers, names, site :: calls⟩⟩ m = (.error site.refusal, m) := by
  have hcount : (stack.take site.arguments).reverse.length = site.arguments := by
    rw [List.length_reverse, List.length_take]
    omega
  rw [outcome_step_call]
  simp only [refusing, hf, Option.map_some, if_neg hstack, Run.bind_apply, Run.mapError,
    StateT.run, ExceptT.run, hrefused, hcount]
  rfl

/-- Whatever ends the run at a call to be refused, it is not what another call would have asked
for. -/
theorem exists_error_of_refused {other : CallSite} (hne : other ≠ site)
    (hrefused : refuses site.name m.callDepth = true) :
    ∃ e m₁, outcome (step (refusing values functions refuses count) .call)
      ⟨stack, ⟨numbers, names, site :: calls⟩⟩ m = (.error e, m₁) ∧ e ≠ other.refusal := by
  cases hf : functions site.name with
  | none =>
    rw [outcome_step_call]
    simp only [refusing, hf, Option.map_none]
    exact ⟨_, _, rfl, fun h => by cases h⟩
  | some f =>
    by_cases hstack : stack.length < site.arguments
    · rw [outcome_step_call]
      simp only [refusing, hf, Option.map_some, if_pos hstack]
      exact ⟨_, _, rfl, fun h => by cases h⟩
    · refine ⟨_, _, outcome_call_refused hf hstack hrefused, fun h => ?_⟩
      exact hne (CallSite.refusal_injective h).symm

/-- All of the calls are answered, and then a call of either site is refused. -/
def Reaches (refuses : String → Nat → Bool) (count : Nat → Nat) (a b : CallSite) :
    List CallSite → Nat → Prop
  | [], depth => refuses a.name depth = true ∧ refuses b.name depth = true
  | site :: before, depth =>
    refuses site.name depth = false ∧ Reaches refuses count a b before (count depth)

/-- Refusals that wait for as many calls as come before the first difference. -/
theorem reaches_of_length (a b : CallSite) {limit : Nat} {before : List CallSite} {depth : Nat}
    (hlimit : limit = depth + before.length) :
    Reaches (fun _ depth => decide (limit ≤ depth)) (· + 1) a b before depth := by
  induction before generalizing depth with
  | nil => exact ⟨by simp [hlimit], by simp [hlimit]⟩
  | cons site before ih =>
    rw [List.length_cons] at hlimit
    have hbefore : ¬ limit ≤ depth := by omega
    have hrest : limit = depth + 1 + before.length := by omega
    exact ⟨by simp [hbefore], ih hrest⟩

/-- Refusals of two names none of which is called before the first difference. -/
theorem reaches_of_names {a b : CallSite} {before : List CallSite} {depth : Nat}
    (hbefore : ∀ site ∈ before, site.name ≠ a.name ∧ site.name ≠ b.name) :
    Reaches (fun name _ => name = a.name || name = b.name) id a b before depth := by
  induction before generalizing depth with
  | nil => exact ⟨by simp, by simp⟩
  | cons site before ih =>
    obtain ⟨⟨ha, hb⟩, hrest⟩ := List.forall_mem_cons.mp hbefore
    exact ⟨by simp [ha, hb], ih hrest⟩

/-- **Two lists of calls carried out side by side.**  They are the same up to a first difference,
and with the first of them the instructions get to their end if no call is refused.  Then the
refusal there is what the first answers, and the second answers another error. -/
theorem outcome_refusing {a b : CallSite} (hne : a ≠ b) {is : List Instruction}
    {before after : List CallSite} (after' : List CallSite) {frame : Frame} {m₀ : Machine}
    (h : outcome (exec (ofFunctions values functions) is)
      ⟨stack, ⟨numbers, names, before ++ a :: after⟩⟩ m₀ = (.ok frame, m₁))
    (hframe : frame.tables.calls = []) (hreaches : Reaches refuses count a b before m.callDepth) :
    (outcome (exec (refusing values functions refuses count) is)
        ⟨stack, ⟨numbers, names, before ++ a :: after⟩⟩ m).1 = .error a.refusal ∧
      ∃ e, (outcome (exec (refusing values functions refuses count) is)
        ⟨stack, ⟨numbers, names, before ++ b :: after'⟩⟩ m).1 = .error e ∧ e ≠ a.refusal := by
  induction is generalizing stack numbers names before m₀ m with
  | nil =>
    rw [outcome_nil] at h
    cases h
    exact absurd hframe (by simp)
  | cons i rest ih =>
    rw [outcome_cons] at h
    obtain ⟨frame₁, m₂, hstep, hrest⟩ := Run.exists_of_bind_eq_ok h
    rw [outcome_cons, outcome_cons, Run.bind_apply, Run.bind_apply]
    by_cases hi : i = .call
    · subst hi
      rcases before with _ | ⟨site, before⟩
      -- the first difference: one call is refused, and the other one fails in some way
      · obtain ⟨f, value, hf, hstack, -, -⟩ := exists_of_outcome_call_ok hstep
        obtain ⟨e, m₃, hother, hother_ne⟩ := exists_error_of_refused hne hreaches.2
        rw [List.nil_append, outcome_call_refused hf hstack hreaches.1, List.nil_append, hother]
        exact ⟨rfl, e, rfl, hother_ne⟩
      -- before it, both answer the call alike
      · obtain ⟨f, value, hf, hstack, hvalue, rfl⟩ := exists_of_outcome_call_ok hstep
        rw [List.cons_append, outcome_call_answered hf hstack hvalue hreaches.1, List.cons_append,
          outcome_call_answered hf hstack hvalue hreaches.1]
        exact ih hrest hreaches.2
    · obtain ⟨stack', numbers', names', rfl, rfl, hsame⟩ :=
        outcome_step_of_ne_call (refusing values functions refuses count) hi hstep rfl
      rw [hsame, hsame]
      exact ih hrest hreaches

end Refusing

end Exec

/-! ### A run that answers something else -/

namespace Program

open Environment Abacus.Expr

variable {e : Expr}

/-- A run and the tree are told apart at the first call that is recorded where another one is
carried out, in an environment that answers the calls before it and refuses that one. -/
theorem run_ne_evaluate_of_reaches (htrailing : e.hasTrailing = false)
    {values : String → Option Float}
    {functions : String → Option (List Float → Except FunctionError Float)} {m₀ : Machine}
    {value : Float} (hvalue : (e.evaluate (.ofFunctions values functions) m₀).1 = .ok value)
    {before after after' : List CallSite} {a b : CallSite} (hne : a ≠ b)
    (hperformed : e.performedCalls = before ++ a :: after)
    (hrecorded : e.recordedCalls = before ++ b :: after') {refuses : String → Nat → Bool}
    {count : Nat → Nat} {m : Machine} (hm : m.pool.IdleEmpty)
    (hreaches : Exec.Reaches refuses count a b before m.callDepth) :
    ((e.orderedProgram.withCalls e.recordedCalls).run
        (.refusing values functions refuses count) m).1 ≠
      (e.evaluate (.refusing values functions refuses count) m).1 := by
  have hempty : m.borrowStack.1 = [] := hm.acquire.1
  -- Given its own calls, the compiled program gets to its end where the tree has a value.
  have hordered : e.orderedProgram.tables =
      ⟨e.orderedProgram.tables.values, e.orderedProgram.tables.names, before ++ a :: after⟩ := by
    rw [← hperformed, ← Expr.calls_orderedProgram]
  obtain ⟨m₁, hend⟩ : ∃ m₁, Exec.outcome (exec (.ofFunctions values functions)
      e.orderedProgram.instructions) ⟨[], e.orderedProgram.tables⟩ m₀ =
        (.ok ⟨[value], .empty⟩, m₁) := by
    rw [Exec.outcome_orderedProgram_alone _ htrailing, Run.bind_apply]
    rcases hx : e.evaluate (.ofFunctions values functions) m₀ with ⟨r, m₁⟩
    rw [hx] at hvalue
    cases hvalue
    exact ⟨m₁, rfl⟩
  rw [hordered] at hend
  rw [← Machine.callDepth_borrowStack] at hreaches
  obtain ⟨hfirst, error, hsecond, herror⟩ :=
    Exec.outcome_refusing hne after' hend rfl hreaches
  have hrecords : (e.orderedProgram.withCalls e.recordedCalls).tables =
      ⟨e.orderedProgram.tables.values, e.orderedProgram.tables.names, before ++ b :: after'⟩ := by
    rw [withCalls, hrecorded]
  rw [← (run_orderedProgram_agree htrailing
    (agree_refusing values functions refuses count) ⟨hm, rfl⟩).1.eq, run_fst, run_fst, hempty,
    hrecords, hordered, hfirst]
  show Except.bind (Exec.outcome (exec _ e.orderedProgram.instructions) _ _).1 _ ≠ _
  rw [hsecond]
  exact fun heq => herror (Except.error.inj heq)

/-- **A run and the tree can be told apart** wherever the calls are not in order, by functions that
count the calls they answer. -/
theorem exists_run_ne_evaluate (htrailing : e.hasTrailing = false) (hvalue : e.HasValue)
    (hout : ¬ e.CallsInOrder) {m : Machine} (hm : m.pool.IdleEmpty) :
    ∃ env, env.Agree env ∧ ((e.orderedProgram.withCalls e.recordedCalls).run env m).1 ≠
      (e.evaluate env m).1 := by
  obtain ⟨values, functions, m₀, value, hvalue⟩ := hvalue
  obtain ⟨before, b, after', a, after, hrecorded, hperformed, hne⟩ :=
    exists_first_difference e.recordedCalls_perm.length_eq hout
  exact ⟨_, agree_refusing values functions _ _,
    run_ne_evaluate_of_reaches htrailing hvalue (Ne.symm hne) hperformed hrecorded hm
      (Exec.reaches_of_length a b rfl)⟩

/-- **A run and the tree can be told apart** by functions of their arguments alone, if none is
called twice. -/
theorem exists_functions_run_ne_evaluate (htrailing : e.hasTrailing = false) (hvalue : e.HasValue)
    (honce : e.CallsOnce) (hout : ¬ e.CallsInOrder) {m : Machine} (hm : m.pool.IdleEmpty) :
    ∃ values functions, ((e.orderedProgram.withCalls e.recordedCalls).run
        (.ofFunctions values functions) m).1 ≠
      (e.evaluate (.ofFunctions values functions) m).1 := by
  obtain ⟨values, functions, m₀, value, hvalue⟩ := hvalue
  obtain ⟨before, b, after', a, after, hrecorded, hperformed, hne⟩ :=
    exists_first_difference e.recordedCalls_perm.length_eq hout
  have hrecorded_once : (e.recordedCalls.map CallSite.name).Nodup :=
    (e.recordedCalls_perm.map _).nodup_iff.mpr honce
  have hbefore : ∀ site ∈ before, site.name ≠ a.name ∧ site.name ≠ b.name := by
    intro site hsite
    rw [CallsOnce, hperformed, List.map_append, List.nodup_append] at honce
    rw [hrecorded, List.map_append, List.nodup_append] at hrecorded_once
    have hname := List.mem_map_of_mem (f := CallSite.name) hsite
    exact ⟨honce.2.2 _ hname _ (by simp), hrecorded_once.2.2 _ hname _ (by simp)⟩
  have htold := run_ne_evaluate_of_reaches htrailing hvalue (Ne.symm hne) hperformed hrecorded hm
    (Exec.reaches_of_names hbefore)
  rw [refusing_eq_ofFunctions values functions fun name => name = a.name || name = b.name] at htold
  exact ⟨values, _, htold⟩

end Program

end Abacus
