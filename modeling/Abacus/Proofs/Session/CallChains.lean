import Abacus.Proofs.Machine.CallDepth
import Abacus.Proofs.Program.CalledNames
import Abacus.Proofs.Session.History

/-!
# Chains of calls

In the definitions of a session a function calls others, as its body says, and so there are chains
of functions of which each calls the next.  An expression that has a value has had an answer at
each level, and no chain that starts in it has more functions than there are levels.  Then no chain
comes back to a function either, for it could go round as often as one likes.  And if an evaluation
fails for want of levels, the calls that were in progress are a chain that is longer.

## Main definitions

* `Globals.Chain`: functions of which each calls the next
* `Session.Request.Evaluates`: the requests for which an expression is evaluated

## Main results

* `Globals.Chain.nodup_of_length_le`: chains that can not be long come back to no function
* `Globals.shortWithin`, `Globals.longWithin`: one call, by induction on the levels that are left
* `Session.chains_of_evaluates`: an expression that is evaluated at the top level
-/

namespace Abacus

namespace Globals

/-! ### Chains -/

/-- **Functions of which each calls the next**, the first one being among those named. -/
inductive Chain (g : Globals) : List String → List String → Prop
  | nil {names : List String} : Chain g names []
  | cons {names rest : List String} {name : String} {f : UserFunction} :
    name ∈ names → g.functions.find? name = some f → Chain g f.body.callees rest →
      Chain g names (name :: rest)

variable {g : Globals}

/-- A chain may go on differently after a function. -/
theorem Chain.turn {names before after other : List String} {name : String} {f : UserFunction}
    (h : g.Chain names (before ++ name :: after)) (hf : g.functions.find? name = some f)
    (hother : g.Chain f.body.callees other) : g.Chain names (before ++ name :: other) := by
  induction before generalizing names with
  | nil =>
    cases h with
    | cons hname hf' _ =>
      rw [hf] at hf'
      cases hf'
      exact .cons hname hf hother
  | cons first before ih =>
    cases h with
    | cons hname hfirst hrest => exact .cons hname hfirst (ih hrest)

/-- Chains from a function that is in one of them go round as often as one likes. -/
theorem Chain.exists_long {before after : List String} {name : String} {f : UserFunction}
    (hf : g.functions.find? name = some f)
    (h : g.Chain f.body.callees (before ++ name :: after)) (n : Nat) :
    ∃ chain, g.Chain f.body.callees chain ∧ n ≤ chain.length := by
  induction n with
  | zero => exact ⟨[], .nil, Nat.le_refl 0⟩
  | succ n ih =>
    obtain ⟨chain, hchain, hlong⟩ := ih
    refine ⟨before ++ name :: chain, h.turn hf hchain, ?_⟩
    rw [List.length_append, List.length_cons]
    omega

/-- **If no chain is longer than a bound, no chain comes back to a function.** -/
theorem Chain.nodup_of_length_le {names chain : List String} (h : g.Chain names chain)
    {bound : Nat} (hbound : ∀ chain, g.Chain names chain → chain.length ≤ bound) :
    chain.Nodup := by
  induction h generalizing bound with
  | nil => exact List.nodup_nil
  | @cons names rest name f hname hf hrest ih =>
    have hinner : ∀ chain, g.Chain f.body.callees chain → chain.length ≤ bound := by
      intro chain hchain
      have hlong := hbound _ (.cons hname hf hchain)
      rw [List.length_cons] at hlong
      omega
    rw [List.nodup_cons]
    refine ⟨?_, ih hinner⟩
    intro hagain
    obtain ⟨before, after, rfl⟩ := List.append_of_mem hagain
    obtain ⟨chain, hchain, hlong⟩ := hrest.exists_long hf (bound + 1)
    exact absurd (hinner chain hchain) (Nat.not_le.mpr hlong)

/-- No call site is left over in the body of a function. -/
def UsesAllSites (g : Globals) : Prop :=
  ∀ name f, g.functions.find? name = some f → f.body.UsesAllSites

/-! ### One level more -/

theorem function?_of_find? {name : String} {f : UserFunction}
    (hf : g.functions.find? name = some f) (call : UserFunction → Callable) :
    (g.environmentWith call).function? name = some (call f) := by
  change ((g.functions.find? name).map call).or _ = _
  rw [hf]
  rfl

/-- A function that answers with so many levels left starts no chain of as many functions. -/
def ShortWithin (g : Globals) (levels : Nat) : Prop :=
  ∀ f : UserFunction, f.body.UsesAllSites → ∀ args m value m',
    UserFunction.callWithin g levels f args m = (.ok value, m') →
      ∀ chain, g.Chain f.body.callees chain → chain.length < levels

/-- A function that fails for want of levels, with so many left, starts a chain of as many
functions. -/
def LongWithin (g : Globals) (levels : Nat) : Prop :=
  ∀ f : UserFunction, f.body.UsesAllSites → ∀ args m e m' (f₀ : UserFunction),
    UserFunction.callWithin g levels f args m = (.error e, m') →
      e.toRuntime.cause = .call f₀.tooDeep →
        ∃ chain, g.Chain f.body.callees chain ∧ chain.length = levels

variable {levels : Nat} {names : List String}

/-- If all functions that are named have answered, chains are no longer than the levels. -/
theorem ShortWithin.chain_le (hlevels : g.ShortWithin levels) (hg : g.UsesAllSites)
    (h : ∀ name ∈ names, (g.environmentWith (UserFunction.callWithin g levels)).CanAnswer name)
    {chain : List String} (hchain : g.Chain names chain) : chain.length ≤ levels := by
  cases hchain with
  | nil => exact Nat.zero_le levels
  | @cons _ rest name f hname hf hrest =>
    obtain ⟨f', args, m, value, m', hf', hanswer⟩ := h name hname
    rw [function?_of_find? hf] at hf'
    cases hf'
    exact hlevels f (hg name f hf) args m value m' hanswer rest hrest

/-- If one of them has failed for want of levels, there is a chain of one function more. -/
theorem LongWithin.exists_chain (hlevels : g.LongWithin levels) (hg : g.UsesAllSites)
    {f₀ : UserFunction}
    (h : ∃ name ∈ names,
      (g.environmentWith (UserFunction.callWithin g levels)).CanFail f₀.tooDeep name) :
    ∃ chain, g.Chain names chain ∧ chain.length = levels + 1 := by
  obtain ⟨name, hname, f', args, m, e, m', hf', hfails, hcause⟩ := h
  cases hf : g.functions.find? name with
  | some f =>
    rw [function?_of_find? hf] at hf'
    cases hf'
    obtain ⟨chain, hchain, hlength⟩ :=
      hlevels f (hg name f hf) args m e m' f₀ hfails hcause
    exact ⟨name :: chain, .cons hname hf hchain, by rw [List.length_cons, hlength]⟩
  | none =>
    -- a built-in function refuses nothing but a wrong number of arguments
    change ((g.functions.find? name).map _).or ((BuiltinFunction.ofName? name).map _) = _ at hf'
    rw [hf, Option.map_none, Option.none_or, Option.map_eq_some_iff] at hf'
    obtain ⟨builtin, -, rfl⟩ := hf'
    have hfails' : builtin.call args = .error e := congrArg Prod.fst hfails
    unfold BuiltinFunction.call at hfails'
    split at hfails'
    · cases hfails'
    · cases hfails'
      cases hcause

end Globals

/-! ### A call -/

namespace UserFunction

variable {f : UserFunction} {args : List Float} {m m' : Machine}

theorem exists_of_evaluateBody_ok {env : Environment} {value : Float}
    (h : f.evaluateBody env args m = (.ok value, m')) :
    ∃ m₁ m₂, f.body.evaluate (env.bind (.ofList (f.parameters.zip args))) m₁ =
      (.ok value, m₂) :=
  Run.exists_of_inCall_eq (Run.eq_ok_of_mapError h)

theorem exists_of_evaluateBody_error {env : Environment} {e : FunctionError}
    (h : f.evaluateBody env args m = (.error e, m')) :
    ∃ m₁ e' m₂, f.body.evaluate (env.bind (.ofList (f.parameters.zip args))) m₁ =
      (.error e', m₂) ∧ e = .runtime e' := by
  obtain ⟨e', hfails, rfl⟩ := Run.exists_of_mapError_eq_error h
  obtain ⟨m₁, m₂, hbody⟩ := Run.exists_of_inCall_eq hfails
  exact ⟨m₁, e', m₂, hbody, rfl⟩

end UserFunction

namespace Globals

variable {g : Globals}

/-- **Functions that answer**, by induction on the levels: what a body calls has one less. -/
theorem shortWithin (hg : g.UsesAllSites) (levels : Nat) : g.ShortWithin levels := by
  induction levels with
  | zero =>
    intro f hf args m value m' h
    unfold UserFunction.callWithin UserFunction.checked at h
    split at h
    · cases h
    · cases h
  | succ levels ih =>
    intro f hf args m value m' h chain hchain
    unfold UserFunction.callWithin UserFunction.checked at h
    split at h
    · obtain ⟨m₁, m₂, hbody⟩ := UserFunction.exists_of_evaluateBody_ok h
      obtain ⟨-, hanswers⟩ := (Formula.calls_evaluate _ hf).answered hbody
      exact Nat.lt_succ_of_le (ih.chain_le hg hanswers hchain)
    · cases h

/-- **Functions that fail for want of levels**, in the same way. -/
theorem longWithin (hg : g.UsesAllSites) (levels : Nat) : g.LongWithin levels := by
  induction levels with
  | zero =>
    intro f hf args m e m' f₀ h hcause
    exact ⟨[], .nil, rfl⟩
  | succ levels ih =>
    intro f hf args m e m' f₀ h hcause
    unfold UserFunction.callWithin UserFunction.checked at h
    split at h
    · obtain ⟨m₁, e', m₂, hbody, rfl⟩ := UserFunction.exists_of_evaluateBody_error h
      have hcanFail := (Formula.calls_evaluate _ hf).failed hbody hcause
      exact ih.exists_chain hg hcanFail
    -- the wrong number of arguments
    · cases h
      cases hcause

end Globals

/-! ### Expressions at the top level -/

/-- An expression made ready and evaluated. -/
def calculateExpr (strategy : Strategy) (env : Environment) (e : Expr) : Run Failure Float := do
  let formula ← Run.mapError Failure.compile (Formula.ofExpr strategy e)
  Run.mapError Failure.runtime (formula.evaluate env)

theorem calculate_eq (strategy : Strategy) (env : Environment) (text : String) :
    calculate strategy env text = (do
      let e ← Run.mapError Failure.parse (readExpr text)
      calculateExpr strategy env e) := rfl

theorem calculateExpr_reentrant (strategy : Strategy) {env : Environment} (henv : env.Reentrant)
    (e : Expr) : (calculateExpr strategy env e).Reentrant := by
  apply ((Formula.ofExpr_reentrant strategy e).mapError _).bind
  intro formula
  exact (henv.formula formula).mapError _

theorem Definition.ofTarget_var (strategy : Strategy) (g : Globals) (name : String)
    (body : Expr) :
    ofTarget strategy g (.var name) body = (do
      let value ← calculateExpr strategy g.environment body
      pure (ofVariable name value)) := by
  rw [ofTarget, calculateExpr, bind_assoc]

namespace Run.SameAt

variable {calls : Nat} {env env' : Environment}

theorem report {ε : Type} (event : Event) :
    SameAt calls (Run.report event : Run ε Unit) (Run.report event) := by
  intro m hm
  exact ⟨rfl, hm⟩

theorem ofExpr (strategy : Strategy) (e : Expr) :
    SameAt calls (Formula.ofExpr strategy e) (Formula.ofExpr strategy e) := by
  cases strategy with
  | tree => exact answer calls _
  | stackMachine =>
    have hcompile : SameAt calls (compileExpr e) (compileExpr e) := by
      apply (answer calls _).bind
      intro p
      apply (report _).bind
      intro _
      apply (report _).bind
      intro _
      exact answer calls (.ok p)
    apply hcompile.bind
    intro p
    exact answer calls _

theorem calculateExpr (henv : env.Related SameAt calls env') (strategy : Strategy) (e : Expr) :
    SameAt calls (calculateExpr strategy env e) (Abacus.calculateExpr strategy env' e) := by
  apply ((ofExpr strategy e).mapError _).bind
  intro formula
  exact (congruence_sameAt.formula henv formula).mapError _

end Run.SameAt

namespace Expr

variable {strategy : Strategy} {env : Environment} {e : Expr} {m m' : Machine}

/-- If an expression has a value, so have had all calls of the functions it names. -/
theorem canAnswer_of_calculateExpr {value : Float}
    (h : calculateExpr strategy env e m = (.ok value, m')) :
    ∀ name ∈ e.callees, env.CanAnswer name := by
  obtain ⟨formula, m₁, hformula, hvalue⟩ := Run.exists_of_bind_eq_ok h
  obtain ⟨hsites, hcallees⟩ := Formula.of_ofExpr (Run.eq_ok_of_mapError hformula)
  obtain ⟨-, hanswers⟩ :=
    (Formula.calls_evaluate env hsites).answered (Run.eq_ok_of_mapError hvalue)
  rw [← hcallees]
  exact hanswers

/-- If it fails because a call was refused, one of these functions has failed for the same
reason. -/
theorem canFail_of_calculateExpr {fault : CallFault} {calls : Nat}
    (h : calculateExpr strategy env e m = (.error (.runtime ⟨.call fault, calls⟩), m')) :
    ∃ name ∈ e.callees, env.CanFail fault name := by
  rw [calculateExpr, Run.bind_apply] at h
  rcases hformula : Run.mapError Failure.compile (Formula.ofExpr strategy e) m with
    ⟨e' | formula, m₁⟩
  · -- what can not be compiled is not run
    rw [hformula] at h
    obtain ⟨cause, -, hcompile⟩ := Run.exists_of_mapError_eq_error hformula
    cases hcompile
    cases h
  · rw [hformula] at h
    obtain ⟨hsites, hcallees⟩ := Formula.of_ofExpr (Run.eq_ok_of_mapError hformula)
    obtain ⟨err, hfails, herr⟩ := Run.exists_of_mapError_eq_error h
    cases herr
    rw [← hcallees]
    exact (Formula.calls_evaluate env hsites).failed hfails rfl

end Expr

/-! ### What a session defines -/

namespace Definition

variable {strategy : Strategy} {g : Globals} {m m' : Machine}

theorem usesAllSites_of_ofTarget {target body : Expr} {f : UserFunction}
    (h : ofTarget strategy g target body m = (.ok (.ofFunction f), m')) :
    f.body.UsesAllSites := by
  cases target with
  | var name =>
    rw [ofTarget_var] at h
    obtain ⟨value, m₁, -, hdefinition⟩ := Run.exists_of_bind_eq_ok h
    cases hdefinition
  | call name arguments =>
    obtain ⟨parameters, m₁, -, h⟩ := Run.exists_of_bind_eq_ok h
    obtain ⟨formula, m₂, hformula, hdefinition⟩ := Run.exists_of_bind_eq_ok h
    cases hdefinition
    obtain ⟨hsites, -⟩ := Formula.of_ofExpr (Run.eq_ok_of_mapError hformula)
    exact hsites
  | num _ | group _ | neg _ | trailingNeg _ | binary _ _ _ => cases h

theorem usesAllSites_of_read {line : String} {f : UserFunction}
    (h : read strategy g line m = (.ok (.ofFunction f), m')) : f.body.UsesAllSites := by
  unfold read at h
  cases hcut : Text.cutAt? '=' line.toList with
  | none =>
    rw [hcut] at h
    cases h
  | some parts =>
    rw [hcut] at h
    dsimp only at h
    split at h
    · cases h
    · obtain ⟨target, m₁, -, h⟩ := Run.exists_of_bind_eq_ok h
      obtain ⟨body, m₂, -, h⟩ := Run.exists_of_bind_eq_ok h
      exact usesAllSites_of_ofTarget h

/-- A definition keeps what is known of all functions, if it is known of a function that it adds. -/
theorem forall_functions_addTo {d : Definition} {P : String → UserFunction → Prop}
    (hg : ∀ name f, g.functions.find? name = some f → P name f)
    (hd : ∀ f, d = .ofFunction f → P f.name f) :
    ∀ name f, (d.addTo g).functions.find? name = some f → P name f := by
  cases d with
  | ofVariable name value => exact hg
  | ofFunction f =>
    intro name f' hf'
    change (g.functions.insert f.name f).find? name = some f' at hf'
    rw [Bindings.find?_insert] at hf'
    by_cases hname : name = f.name
    · rw [if_pos hname] at hf'
      cases hf'
      rw [hname]
      exact hd f rfl
    · rw [if_neg hname] at hf'
      exact hg name f' hf'

end Definition

namespace Session

variable {s : Session}

/-- **What every definition keeps**, and what is so while nothing is defined, is so in every session
that can be reached, whichever way it evaluates. -/
theorem Reachable.of_addTo {P : Strategy → Globals → Prop} (hempty : ∀ strategy, P strategy .empty)
    (hadd : ∀ {strategy g line m d m'}, P strategy g →
      Definition.read strategy g line m = (.ok d, m') → P strategy (d.addTo g))
    (h : s.Reachable) : P s.strategy s.globals := by
  have hdefine (s : Session) (line : String) (hs : P s.strategy s.globals) :
      P (s.define line).2.strategy (s.define line).2.globals := by
    unfold define
    rcases hread : Definition.read s.strategy s.globals line s.machine with ⟨e | d, m⟩
    · simpa only [perform, StateT.run, ExceptT.run, hread] using hs
    · simpa only [perform, StateT.run, ExceptT.run, hread] using hadd hs hread
  induction h with
  | new strategy settings threshold => exact hempty strategy
  | @answer s request _ ih =>
    cases request with
    | execute line =>
      change P (s.execute line).2.strategy (s.execute line).2.globals
      unfold execute
      split
      · exact hdefine s line ih
      · exact ih
    | define line => exact hdefine s line ih
    | evaluate line => exact ih
    | compile line => exact ih
    | clear => exact hempty s.strategy

theorem Reachable.globals_of_addTo {P : Globals → Prop} (hempty : P .empty)
    (hadd : ∀ {strategy g line m d m'}, P g → Definition.read strategy g line m = (.ok d, m') →
      P (d.addTo g)) (h : s.Reachable) : P s.globals :=
  h.of_addTo (P := fun _ => P) (fun _ => hempty) hadd

/-- **In a session that can be reached** no body has a call site left over. -/
theorem Reachable.usesAllSites (h : s.Reachable) : s.globals.UsesAllSites := by
  refine h.globals_of_addTo nofun fun hg hread => ?_
  apply Definition.forall_functions_addTo hg
  rintro f rfl
  exact Definition.usesAllSites_of_read hread

/-! ### Requests that evaluate -/

/-- **The request has an expression evaluated** at the top level: a line that is one, or the body
of the definition of a variable. -/
inductive Request.Evaluates : Request → Expr → Prop
  | ofLine {line : String} {e : Expr} : parse line = .ok e → Evaluates (.evaluate line) e
  | ofVariable {line name : String} {target body : List Char} {e : Expr} :
    Text.cutAt? '=' line.toList = some (target, body) → body.contains '=' = false →
      parse (String.ofList target) = .ok (.var name) → parse (String.ofList body) = .ok e →
        Evaluates (.define line) e
  | executeLine {line : String} {e : Expr} :
    isDefinition line = false → Evaluates (.evaluate line) e → Evaluates (.execute line) e
  | executeDefinition {line : String} {e : Expr} :
    isDefinition line = true → Evaluates (.define line) e → Evaluates (.execute line) e

/-- The failure in a result. -/
def failureOf? {ε α : Type} : Except ε α → Option ε
  | .ok _ => none
  | .error e => some e

/-- The failure that is replied, if any. -/
def Reply.failure? : Reply → Option Failure
  | .outcome result => failureOf? result
  | .signature result => failureOf? result
  | .value result => failureOf? result
  | .program result => failureOf? result
  | .cleared => none

theorem mapError_readExpr_apply {text : String} {e : Expr} (h : parse text = .ok e)
    (m : Machine) :
    Run.mapError Failure.parse (readExpr text) m = (.ok e, m.report (.parsed e)) := by
  unfold readExpr
  rw [h]
  rfl

theorem calculate_apply {text : String} {e : Expr} (h : parse text = .ok e)
    (strategy : Strategy) (env : Environment) (m : Machine) :
    calculate strategy env text m = calculateExpr strategy env e (m.report (.parsed e)) := by
  rw [calculate_eq, Run.bind_apply, mapError_readExpr_apply h]

theorem read_apply {strategy : Strategy} {g : Globals} {line : String}
    {target body : List Char} {t e : Expr}
    (hcut : Text.cutAt? '=' line.toList = some (target, body)) (hone : body.contains '=' = false)
    (htarget : parse (String.ofList target) = .ok t)
    (hbody : parse (String.ofList body) = .ok e) (m : Machine) :
    Definition.read strategy g line m =
      Definition.ofTarget strategy g t e ((m.report (.parsed t)).report (.parsed e)) := by
  unfold Definition.read
  rw [hcut]
  dsimp only
  rw [hone, if_neg Bool.false_ne_true, Run.bind_apply, mapError_readExpr_apply htarget]
  dsimp only
  rw [Run.bind_apply, mapError_readExpr_apply hbody]

theorem failureOf?_map {ε α β : Type} (f : α → β) (result : Except ε α) :
    failureOf? (result.map f) = failureOf? result := by
  cases result with
  | error e => rfl
  | ok a => rfl

/-- What is replied is what comes of the evaluation. -/
theorem failure?_answer {request : Request} {e : Expr} (h : request.Evaluates e) :
    ∃ m, m.callDepth = s.machine.callDepth ∧
      (s.answer request).1.failure? =
        failureOf? (calculateExpr s.strategy s.globals.environment e m).1 := by
  induction h with
  | @ofLine line e hparse =>
    refine ⟨s.machine.report (.parsed e), rfl, ?_⟩
    change failureOf? (calculate s.strategy s.globals.environment line s.machine).1 = _
    rw [calculate_apply hparse]
  | @ofVariable line name target body e hcut hone htarget hbody =>
    refine ⟨(s.machine.report (.parsed (.var name))).report (.parsed e), rfl, ?_⟩
    change failureOf? (s.define line).1 = _
    unfold define perform
    simp only [StateT.run, ExceptT.run]
    rw [read_apply hcut hone htarget hbody, Definition.ofTarget_var, Run.bind_apply]
    rcases calculateExpr s.strategy s.globals.environment e
      ((s.machine.report (.parsed (.var name))).report (.parsed e)) with ⟨cause | value, left⟩
    · rfl
    · rfl
  | @executeLine line e hline _ ih =>
    obtain ⟨m, hm, hfailure⟩ := ih
    refine ⟨m, hm, ?_⟩
    change failureOf? (s.execute line).1 = _
    unfold execute
    rw [hline, if_neg Bool.false_ne_true]
    exact (failureOf?_map _ _).trans hfailure
  | @executeDefinition line e hline _ ih =>
    obtain ⟨m, hm, hfailure⟩ := ih
    refine ⟨m, hm, ?_⟩
    change failureOf? (s.execute line).1 = _
    unfold execute
    rw [hline, if_pos rfl]
    exact (failureOf?_map _ _).trans hfailure

section

variable {strategy : Strategy} {g : Globals} {e : Expr} {m : Machine} (hg : g.UsesAllSites)

include hg

/-- An expression that has a value starts no chain of more functions than there are levels. -/
theorem chain_le_of_calculateExpr {levels : Nat}
    (h : failureOf? (calculateExpr strategy
      (g.environmentWith (UserFunction.callWithin g levels)) e m).1 = none)
    {chain : List String} (hchain : g.Chain e.callees chain) : chain.length ≤ levels := by
  rcases hvalue : calculateExpr strategy (g.environmentWith (UserFunction.callWithin g levels)) e m
    with ⟨cause | value, left⟩
  · rw [hvalue] at h
    cases h
  · have hanswers := Expr.canAnswer_of_calculateExpr hvalue
    exact (Globals.shortWithin hg levels).chain_le hg hanswers hchain

/-- One that fails for want of levels starts a chain of one function more than there are. -/
theorem exists_chain_of_calculateExpr {levels calls : Nat} {f : UserFunction}
    (h : failureOf? (calculateExpr strategy
      (g.environmentWith (UserFunction.callWithin g levels)) e m).1 =
        some (.runtime ⟨.call f.tooDeep, calls⟩)) :
    ∃ chain, g.Chain e.callees chain ∧ chain.length = levels + 1 := by
  rcases hfails : calculateExpr strategy (g.environmentWith (UserFunction.callWithin g levels)) e m
    with ⟨cause | value, left⟩
  · rw [hfails] at h
    cases h
    exact (Globals.longWithin hg levels).exists_chain hg (Expr.canFail_of_calculateExpr hfails)
  · rw [hfails] at h
    cases h

end

/-- **An expression that is evaluated at the top level.**  The evaluation ends: calls that are
nested more deeply than `maxCallDepth` are not looked at, whatever they are made out to be, and no
call is in progress afterwards.  If there is a value, no chain of calls from the expression has more
functions than that, nor comes back to one.  If a user function finds too many calls in progress,
there is a chain of more. -/
theorem chains_of_evaluates (hs : s.Reachable) {request : Request} {e : Expr}
    (he : request.Evaluates e) :
    (∃ m, m.callDepth = 0 ∧
      (s.answer request).1.failure? =
        failureOf? (calculateExpr s.strategy s.globals.environment e m).1 ∧
      ∀ deeper depth, maxCallDepth < depth →
        calculateExpr s.strategy
            (s.globals.environmentWith (UserFunction.unrolled s.globals deeper depth)) e m =
          calculateExpr s.strategy s.globals.environment e m) ∧
    (s.answer request).2.machine.callDepth = 0 ∧
    ((s.answer request).1.failure? = none →
      ∀ chain, s.globals.Chain e.callees chain → chain.length ≤ maxCallDepth ∧ chain.Nodup) ∧
    ∀ (f : UserFunction) calls,
      (s.answer request).1.failure? = some (.runtime ⟨.call f.tooDeep, calls⟩) →
        ∃ chain, s.globals.Chain e.callees chain ∧ maxCallDepth < chain.length := by
  obtain ⟨m, hm, hfailure⟩ := failure?_answer (s := s) he
  rw [hs.atRest.callDepth] at hm
  have hsites := hs.usesAllSites
  -- at the top level all levels are left
  obtain ⟨htop, -⟩ :=
    Run.SameAt.calculateExpr s.globals.environment_sameAt s.strategy e m hm
  refine ⟨⟨m, hm, hfailure, ?_⟩, (hs.answer request).atRest.callDepth, ?_, ?_⟩
  · intro deeper depth hdepth
    obtain ⟨hunrolled, -⟩ :=
      Run.SameAt.calculateExpr (s.globals.unrolled_sameAt deeper hdepth) s.strategy e m hm
    exact hunrolled.trans htop.symm
  · intro hnone chain hchain
    rw [hfailure, htop] at hnone
    have hbound : ∀ chain, s.globals.Chain e.callees chain → chain.length ≤ maxCallDepth := by
      intro chain hchain
      exact chain_le_of_calculateExpr hsites hnone hchain
    exact ⟨hbound chain hchain, hchain.nodup_of_length_le hbound⟩
  · intro f calls hsome
    rw [hfailure, htop] at hsome
    obtain ⟨chain, hchain, hlength⟩ := exists_chain_of_calculateExpr hsites hsome
    exact ⟨chain, hchain, by omega⟩

/-- In a session with a function that calls another one, and one that calls itself as well. -/
theorem chains_of_evaluates_cycle :
    let s := ((((new .stackMachine ⟨1, 0⟩ .standard).answer (.execute "h(x) = 2 * x")).2.answer
      (.execute "g(x) = x + h(x)")).2.answer (.define "f(x) = g(x) * f(x + 1)")).2
    s.Reachable ∧
      (∃ e, (Request.execute "g(1)").Evaluates e ∧
        ∀ chain, s.globals.Chain e.callees chain → chain.length ≤ maxCallDepth ∧ chain.Nodup) ∧
      ∃ e, (Request.evaluate "f(1)").Evaluates e ∧
        ∃ chain, s.globals.Chain e.callees chain ∧ maxCallDepth < chain.length := by
  intro s
  have hs : s.Reachable := .answer _ (.answer _ (.answer _ (.new _ _ _)))
  have hparse (text : String) (h : (parse text).isOk = true) : ∃ e, parse text = .ok e := by
    cases hr : parse text with
    | error e =>
      rw [hr] at h
      cases h
    | ok e => exact ⟨e, rfl⟩
  obtain ⟨e, he⟩ := hparse "g(1)" (by decide +kernel)
  obtain ⟨e', he'⟩ := hparse "f(1)" (by decide +kernel)
  have hg : (Request.execute "g(1)").Evaluates e := .executeLine (by decide +kernel) (.ofLine he)
  have hf : (Request.evaluate "f(1)").Evaluates e' := .ofLine he'
  obtain ⟨-, -, hvalue, -⟩ := chains_of_evaluates hs hg
  obtain ⟨-, -, -, hdeep⟩ := chains_of_evaluates hs hf
  have hanswered : (s.answer (.execute "g(1)")).1.failure? = none := by
    subst s
    decide +kernel
  have hfailed : (s.answer (.evaluate "f(1)")).1.failure? = some (.runtime
      ⟨.call (UserFunction.tooDeep ⟨"h", [], .tree (.var "x")⟩), 200⟩) := by
    subst s
    decide +kernel
  exact ⟨hs, ⟨e, hg, hvalue hanswered⟩, e', hf, hdeep _ _ hfailed⟩

end Session

end Abacus
