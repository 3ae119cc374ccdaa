import Abacus.Proofs.Program.Occurrences
import Abacus.Proofs.Session.Definitions

/-!
# What a value depends on

Names of functions lead from an expression to the bodies of user functions, and from there to more
names.  What an expression has for a value depends on the definitions of the names that can be
reached in this way and on no others, and it makes no difference what else is defined, or what has
been asked of the session.  The parameters of a function stand for what it is called with, and so
they lead nowhere as variables in its body; as the names of functions they do.

Names are looked up when a function is called, in definitions that are shared by all calls.  The
proof goes by the levels of calls that are left: what the functions that can be reached do with so
many levels, they do in the other session.

## Main definitions

* `Globals.ReachesFunction`, `Globals.ReachesVariable`: the names that can be reached
* `Globals.AgreesFrom`: definitions that are the same for these names
* `Session.Spares`: steps that change none of them

## Main results

* `Globals.callWithin_eq`: a call, with any number of levels left
* `Session.Spares.agreesFrom`: one step
* `Session.evaluate_depends`: two sessions, and one session after any steps
-/

namespace Abacus

/-! ### Bindings -/

namespace Bindings

variable {α : Type}

theorem mem_names_insert_iff {b : Bindings α} {name other : String} {value : α} :
    other ∈ (b.insert name value).names ↔ other = name ∨ other ∈ b.names := by
  rw [mem_names_iff, mem_names_iff, find?_insert]
  by_cases hname : other = name <;> simp [hname]

theorem ofList_snoc (entries : List (String × α)) (last : String × α) :
    ofList (entries ++ [last]) = (ofList entries).insert last.1 last.2 :=
  List.foldl_concat _ _ _ _

/-- The names of a list are bound. -/
theorem mem_names_ofList_iff {entries : List (String × α)} {name : String} :
    name ∈ (ofList entries).names ↔ name ∈ entries.map (·.1) := by
  induction entries using List.reverseRecOn with
  | nil => rfl
  | append_singleton entries last ih =>
    rw [ofList_snoc, mem_names_insert_iff, ih]
    simp [or_comm]

end Bindings

/-- Names that are bound anew stand for the same in whatever environment. -/
theorem Environment.sameOn_bind {names callees : List String} {env env' : Environment}
    {values : Bindings Float}
    (hvalues : ∀ name ∈ names, name ∉ values.names → env.value? name = env'.value? name)
    (hfunctions : ∀ name ∈ callees, env.function? name = env'.function? name) :
    (env.bind values).SameOn names callees (env'.bind values) := by
  refine ⟨fun name hname => ?_, hfunctions⟩
  change (values.find? name).or (env.value? name) = (values.find? name).or (env'.value? name)
  by_cases hbound : name ∈ values.names
  · obtain ⟨value, hvalue⟩ := Bindings.mem_names_iff.mp hbound
    rw [hvalue, Option.some_or, Option.some_or]
  · rw [hvalues name hname hbound]

namespace Globals

/-! ### What can be reached -/

section

variable (g : Globals) (e : Expr)

/-- **A function can be reached** from an expression: it is called there, or in the body of a user
function that can be reached. -/
inductive ReachesFunction : String → Prop
  | occurs {name : String} : name ∈ e.callees → ReachesFunction name
  | inBody {caller name : String} {f : UserFunction} :
    ReachesFunction caller → g.functions.find? caller = some f → name ∈ f.body.callees →
      ReachesFunction name

/-- **A variable can be reached**: it occurs in the expression, or in the body of a user function
that can be reached, without being a parameter there. -/
inductive ReachesVariable : String → Prop
  | occurs {name : String} : name ∈ e.variableNames → ReachesVariable name
  | inBody {caller name : String} {f : UserFunction} :
    g.ReachesFunction e caller → g.functions.find? caller = some f → name ∈ f.body.variableNames →
      name ∉ f.parameters → ReachesVariable name

/-- What is defined can be reached. -/
def Reaches : Definition → Prop
  | .ofVariable name _ => g.ReachesVariable e name
  | .ofFunction f => g.ReachesFunction e f.name

end

/-- **Definitions that agree** on whatever can be reached from an expression: values of variables,
and parameters and bodies of functions. -/
structure AgreesFrom (g : Globals) (e : Expr) (g' : Globals) : Prop where
  values (name : String) : g.ReachesVariable e name → g.values.find? name = g'.values.find? name
  functions (name : String) : g.ReachesFunction e name →
    Option.Rel (fun f f' => f.parameters = f'.parameters ∧ f.body = f'.body)
      (g.functions.find? name) (g'.functions.find? name)

variable {g g' : Globals} {e : Expr}

/-- Functions of one name with the same parameters and body are the same. -/
theorem AgreesFrom.find?_eq (h : g.AgreesFrom e g') (hg : g.NamesFunctions)
    (hg' : g'.NamesFunctions) {name : String} (hname : g.ReachesFunction e name) :
    g.functions.find? name = g'.functions.find? name := by
  have hrel := h.functions name hname
  generalize hf : g.functions.find? name = found at hrel ⊢
  generalize hf' : g'.functions.find? name = found' at hrel ⊢
  cases hrel with
  | none => rfl
  | @some f f' hsame =>
    have hnames : f.name = f'.name := (hg name f hf).trans (hg' name f' hf').symm
    obtain ⟨hparameters, hbody⟩ := hsame
    obtain ⟨name, parameters, body⟩ := f
    obtain ⟨name', parameters', body'⟩ := f'
    dsimp only at hnames hparameters hbody
    subst hnames hparameters hbody
    rfl

theorem agreesFrom_of_eq
    (hvalues : ∀ name, g.ReachesVariable e name → g.values.find? name = g'.values.find? name)
    (hfunctions : ∀ name, g.ReachesFunction e name →
      g.functions.find? name = g'.functions.find? name) : g.AgreesFrom e g' := by
  refine ⟨hvalues, fun name hname => ?_⟩
  rw [hfunctions name hname]
  cases g'.functions.find? name with
  | none => exact .none
  | some f => exact .some ⟨rfl, rfl⟩

/-- A definition that can not be reached makes no difference. -/
theorem agreesFrom_addTo {d : Definition} (h : ¬ g.Reaches e d) : g.AgreesFrom e (d.addTo g) := by
  cases d with
  | ofVariable name value =>
    refine agreesFrom_of_eq (fun other hother => ?_) fun _ _ => rfl
    change _ = (g.values.insert name value).find? other
    rw [Bindings.find?_insert, if_neg]
    rintro rfl
    exact h hother
  | ofFunction f =>
    refine agreesFrom_of_eq (fun _ _ => rfl) fun other hother => ?_
    change _ = (g.functions.insert f.name f).find? other
    rw [Bindings.find?_insert, if_neg]
    rintro rfl
    exact h hother

/-- Nor do all definitions, if none can be reached. -/
theorem agreesFrom_empty (hg : g.NamesFunctions) (h : ∀ d, g.Binds d → ¬ g.Reaches e d) :
    g.AgreesFrom e .empty := by
  refine agreesFrom_of_eq (fun name hname => ?_) fun name hname => ?_
  · cases hvalue : g.values.find? name with
    | none => rfl
    | some value => exact absurd hname (h (.ofVariable name value) hvalue)
  · cases hf : g.functions.find? name with
    | none => rfl
    | some f =>
      obtain rfl := hg name f hf
      exact absurd hname (h (.ofFunction f) hf)

/-! ### Calls -/

section

variable
  (hvalues : ∀ name, g.ReachesVariable e name → g.values.find? name = g'.values.find? name)
  (hfunctions : ∀ name, g.ReachesFunction e name →
    g.functions.find? name = g'.functions.find? name)

include hvalues in
theorem value?_environmentWith_eq (call call' : UserFunction → Callable) {name : String}
    (hname : g.ReachesVariable e name) :
    (g.environmentWith call).value? name = (g'.environmentWith call').value? name := by
  change (g.values.find? name).or _ = (g'.values.find? name).or _
  rw [hvalues name hname]

include hfunctions in
theorem function?_environmentWith_eq {call call' : UserFunction → Callable}
    (hcall : ∀ name f, g.ReachesFunction e name → g.functions.find? name = some f →
      call f = call' f) {name : String} (hname : g.ReachesFunction e name) :
    (g.environmentWith call).function? name = (g'.environmentWith call').function? name := by
  change ((g.functions.find? name).map call).or _ = ((g'.functions.find? name).map call').or _
  rw [← hfunctions name hname]
  cases hf : g.functions.find? name with
  | none => rfl
  | some f => rw [Option.map_some, Option.map_some, hcall name f hname hf]

include hvalues hfunctions

/-- **A call of a function that can be reached**, by induction on the levels that are left. -/
theorem callWithin_eq (levels : Nat) {name : String} {f : UserFunction}
    (hname : g.ReachesFunction e name) (hf : g.functions.find? name = some f) :
    UserFunction.callWithin g levels f = UserFunction.callWithin g' levels f := by
  induction levels generalizing name f with
  | zero => rfl
  | succ levels ih =>
    funext args
    unfold UserFunction.callWithin UserFunction.checked
    by_cases hargs : args.length = f.parameters.length
    -- a body finds its parameters among the arguments, and all else where it can be reached
    · have hbody : ((g.environmentWith (UserFunction.callWithin g levels)).bind
            (.ofList (f.parameters.zip args))).SameOn f.body.variableNames f.body.callees
          ((g'.environmentWith (UserFunction.callWithin g' levels)).bind
            (.ofList (f.parameters.zip args))) := by
        refine Environment.sameOn_bind (fun other hother hfree => ?_) (fun other hother => ?_)
        · rw [Bindings.mem_names_ofList_iff, List.map_fst_zip (Nat.le_of_eq hargs.symm)] at hfree
          exact value?_environmentWith_eq hvalues _ _ (.inBody hname hf hother hfree)
        · exact function?_environmentWith_eq hfunctions (fun _ _ => ih) (.inBody hname hf hother)
      rw [if_pos hargs, if_pos hargs, UserFunction.evaluateBody, UserFunction.evaluateBody,
        Formula.evaluate_congr hbody]
    · rw [if_neg hargs, if_neg hargs]

/-- **What names stand for** at the top level, as far as they can be reached. -/
theorem environment_sameOn :
    g.environment.SameOn e.variableNames e.callees g'.environment := by
  refine ⟨fun name hname => ?_, fun name hname => ?_⟩
  · exact value?_environmentWith_eq hvalues _ _ (.occurs hname)
  · refine function?_environmentWith_eq hfunctions (fun other f hother hf => ?_) (.occurs hname)
    funext args m
    exact congrFun (congrFun (callWithin_eq hvalues hfunctions _ hother hf) args) m

end

end Globals

/-- An expression is made ready and evaluated alike in environments that are the same for the names
that occur in it. -/
theorem calculateExpr_congr (strategy : Strategy) {env env' : Environment} {e : Expr}
    (h : env.SameOn e.variableNames e.callees env') :
    calculateExpr strategy env e = calculateExpr strategy env' e := by
  refine Run.bind_congr_of_ok fun m formula m' hformula => ?_
  have hready := Run.eq_ok_of_mapError hformula
  obtain ⟨-, hcallees⟩ := Formula.of_ofExpr hready
  rw [← Formula.variableNames_of_ofExpr hready, ← hcallees] at h
  rw [Formula.evaluate_congr h]

/-- The program of a compiled formula. -/
def Formula.program? : Formula → Option Program
  | .tree _ => none
  | .compiled p => some p

theorem Formula.program?_eq_some_iff {formula : Formula} {p : Program} :
    formula.program? = some p ↔ formula = .compiled p := by
  cases formula <;> simp [program?]

namespace Session

variable {s s' : Session} {text : String} {e : Expr}

/-- **Two sessions** that agree on what can be reached have the same value or error. -/
theorem evaluate_eq_of_agreesFrom (hs : s.Reachable) (hs' : s'.Reachable)
    (hstrategy : s.strategy = s'.strategy) (he : parse text = .ok e)
    (h : s.globals.AgreesFrom e s'.globals) : (s.evaluate text).1 = (s'.evaluate text).1 := by
  have hfind {name : String} (hname : s.globals.ReachesFunction e name) :
      s.globals.functions.find? name = s'.globals.functions.find? name :=
    h.find?_eq hs.namesFunctions hs'.namesFunctions hname
  have hsame := Globals.environment_sameOn h.values fun _ => hfind
  change (calculate _ _ text s.machine).1 = (calculate _ _ text s'.machine).1
  rw [calculate_apply he, calculate_apply he, hstrategy, calculateExpr_congr _ hsame]
  have hreentrant := calculateExpr_reentrant s'.strategy s'.globals.reentrant_environment e
  exact hreentrant.fst_eq (hs.atRest.callDepth.trans hs'.atRest.callDepth.symm)
    hs.atRest.pool hs'.atRest.pool

/-! ### Steps that change nothing that can be reached -/

/-- **A step spares an expression**: it defines nothing that can be reached from there, and clears
no such thing. -/
def Spares (s : Session) (e : Expr) : Step → Prop
  | .execute line => ∀ d, s.Means line d → ¬ s.globals.Reaches e d
  | .clear => ∀ d, s.globals.Binds d → ¬ s.globals.Reaches e d

theorem strategy_step (next : Step) : (s.step next).2.strategy = s.strategy := by
  cases next with
  | execute line =>
    change (s.execute line).2.strategy = _
    unfold execute define
    split
    · rcases hperform : s.perform (Definition.read s.strategy s.globals line) with ⟨e | d, left⟩
      · exact congrArg (·.2.strategy) hperform.symm
      · exact congrArg (·.2.strategy) hperform.symm
    · rfl
  | clear => rfl

theorem strategy_after (steps : List Step) : (s.after steps).strategy = s.strategy := by
  induction steps using List.reverseRecOn with
  | nil => rfl
  | append_singleton steps last ih => rw [after_snoc, strategy_step, ih]

/-- After a step that spares an expression the definitions agree on what can be reached. -/
theorem Spares.agreesFrom (hs : s.Reachable) {next : Step} (h : s.Spares e next) :
    s.globals.AgreesFrom e (s.step next).2.globals := by
  cases next with
  | execute line =>
    change s.globals.AgreesFrom e (s.execute line).2.globals
    by_cases hmeans : ∃ d, s.Means line d
    · obtain ⟨d, hmade⟩ := hmeans
      rw [(hs.atRest.execute_of_means hmade).2]
      exact Globals.agreesFrom_addTo (h d hmade)
    · rw [hs.atRest.globals_execute_of_no_means (not_exists.mp hmeans)]
      exact Globals.agreesFrom_of_eq (fun _ _ => rfl) fun _ _ => rfl
  | clear => exact Globals.agreesFrom_empty hs.namesFunctions h

/-- **A value depends on what can be reached** and on nothing else.  Two sessions that evaluate in
the same way and agree on it have the same value or the same error, and so has one session after
any steps that spare the expression. -/
theorem evaluate_depends (hs : s.Reachable) (hs' : s'.Reachable)
    (hstrategy : s.strategy = s'.strategy) (he : parse text = .ok e) :
    (s.globals.AgreesFrom e s'.globals → (s.evaluate text).1 = (s'.evaluate text).1) ∧
    ∀ steps : List Step,
      (∀ i next, steps[i]? = some next → (s.after (steps.take i)).Spares e next) →
        ((s.after steps).evaluate text).1 = (s.evaluate text).1 := by
  refine ⟨evaluate_eq_of_agreesFrom hs hs' hstrategy he, fun steps hspares => ?_⟩
  induction steps using List.reverseRecOn with
  | nil => rfl
  | append_singleton steps last ih =>
    have hlast : (s.after steps).Spares e last := by
      have h := hspares steps.length last List.getElem?_concat_length
      rwa [List.take_left] at h
    have hsteps (i : Nat) (next : Step) (hnext : steps[i]? = some next) :
        (s.after (steps.take i)).Spares e next := by
      obtain ⟨hi, -⟩ := List.getElem?_eq_some_iff.mp hnext
      have h := hspares i next (by rw [List.getElem?_append_left hi, hnext])
      rwa [List.take_append_of_le_length (Nat.le_of_lt hi)] at h
    -- the session before the last step and the one after it agree on what can be reached
    have hbefore := hs.after steps
    have hafter := hs.after (steps ++ [last])
    rw [after_snoc] at hafter ⊢
    rw [← ih hsteps]
    exact (evaluate_eq_of_agreesFrom hbefore hafter (strategy_step last).symm he
      (hlast.agreesFrom hbefore)).symm

/-- The names in a text, which can be compared where trees can not. -/
theorem exists_parse_of_names (text : String) (callees names : List String)
    (h : (parse text).toOption.map (fun e => (e.callees, e.variableNames)) =
      some (callees, names)) :
    ∃ e, parse text = .ok e ∧ e.callees = callees ∧ e.variableNames = names := by
  cases hparse : parse text with
  | error cause =>
    rw [hparse] at h
    cases h
  | ok e =>
    rw [hparse] at h
    obtain ⟨hcallees, hnames⟩ := Prod.mk.inj (Option.some.inj h)
    exact ⟨e, rfl, hcallees, hnames⟩

/-- A function with a compiled body, which can be compared in the same way. -/
theorem exists_find?_of_program (g : Globals) (name : String) (parameters : List String)
    (p : Program)
    (h : (g.functions.find? name).map (fun f => (f.parameters, f.body.program?)) =
      some (parameters, some p)) :
    ∃ f, g.functions.find? name = some f ∧ f.parameters = parameters ∧ f.body = .compiled p := by
  obtain ⟨f, hf, hparts⟩ := Option.map_eq_some_iff.mp h
  obtain ⟨hparameters, hprogram⟩ := Prod.mk.inj hparts
  exact ⟨f, hf, hparameters, Formula.program?_eq_some_iff.mp hprogram⟩

/-- Sessions with other settings and another history, which have a variable with the name of a
parameter, and a function with the name of a variable. -/
theorem evaluate_depends_parameter :
    let s := (new .stackMachine ⟨1, 0⟩ .standard).after
      [.execute "x = 2", .execute "f(a) = a * x"]
    let s' := (new .stackMachine ⟨4, 8⟩ .off).after
      [.execute "f(x) = 0", .execute "a = 7", .execute "x(a) = a", .execute "f(a) = a * x",
        .execute "x = 2"]
    s.Reachable ∧ s'.Reachable ∧ s.strategy = s'.strategy ∧ ∃ e, parse "f(3)" = .ok e ∧
      s.globals.AgreesFrom e s'.globals ∧ (s.evaluate "f(3)").1 = (s'.evaluate "f(3)").1 ∧
      s.Spares e (.execute "a = f(7)") ∧
      ((s.after [.execute "a = f(7)"]).evaluate "f(3)").1 = (s.evaluate "f(3)").1 := by
  intro s s'
  have hs : s.Reachable := (Reachable.new _ _ _).after _
  have hs' : s'.Reachable := (Reachable.new _ _ _).after _
  have hstrategy : s.strategy = s'.strategy := by
    have h : s.strategy = .stackMachine := strategy_after _
    have h' : s'.strategy = .stackMachine := strategy_after _
    rw [h, h']
  obtain ⟨e, he, hcallees, hnames⟩ :=
    exists_parse_of_names "f(3)" ["f"] [] (by decide +kernel)
  let p : Program := ⟨[.var, .var, .operator .multiply], ⟨[], ["a", "x"], []⟩⟩
  obtain ⟨f, hf, hparameters, hbody⟩ :=
    exists_find?_of_program s.globals "f" ["a"] p (by subst s; decide +kernel)
  obtain ⟨f', hf', hparameters', hbody'⟩ :=
    exists_find?_of_program s'.globals "f" ["a"] p (by subst s'; decide +kernel)
  -- nothing is called in the body of `f`, and of its two variables one is the parameter
  have hfunctions {name : String} (h : s.globals.ReachesFunction e name) : name = "f" := by
    induction h with
    | occurs hname =>
      rw [hcallees] at hname
      exact List.mem_singleton.mp hname
    | inBody _ hcaller hname ih =>
      subst ih
      rw [hf] at hcaller
      cases hcaller
      rw [hbody] at hname
      cases hname
  have hvariables {name : String} (h : s.globals.ReachesVariable e name) : name = "x" := by
    cases h with
    | occurs hname =>
      rw [hnames] at hname
      cases hname
    | inBody hreached hcaller hname hfree =>
      obtain rfl := hfunctions hreached
      rw [hf] at hcaller
      cases hcaller
      rw [hbody] at hname
      rw [hparameters, List.mem_singleton] at hfree
      have hname' : name ∈ ["a", "x"] := hname
      simpa [hfree] using hname'
  have hagrees : s.globals.AgreesFrom e s'.globals := by
    refine ⟨fun name h => ?_, fun name h => ?_⟩
    · obtain rfl := hvariables h
      subst s s'
      decide +kernel
    · obtain rfl := hfunctions h
      rw [hf, hf']
      exact .some ⟨hparameters.trans hparameters'.symm, hbody.trans hbody'.symm⟩
  have hspares : s.Spares e (.execute "a = f(7)") := by
    intro d hd hreached
    have hcut : Text.cutAt? '=' "a = f(7)".toList = some (['a', ' '], " f(7)".toList) := by decide
    obtain ⟨t, ht, htcallees, htnames⟩ := exists_parse_of_names "a " [] ["a"] (by decide +kernel)
    cases hd with
    | ofVariable hcut' _ htarget _ =>
      rw [hcut] at hcut'
      cases hcut'
      cases ht.symm.trans htarget
      cases htnames
      exact absurd (hvariables hreached) (by decide)
    | ofFunction hcut' _ htarget _ _ _ =>
      rw [hcut] at hcut'
      cases hcut'
      cases ht.symm.trans htarget
      cases htcallees
  obtain ⟨hvalue, hsteps⟩ := evaluate_depends hs hs' hstrategy he
  refine ⟨hs, hs', hstrategy, e, he, hagrees, hvalue hagrees, hspares, hsteps _ ?_⟩
  intro i next hnext
  obtain ⟨hi, rfl⟩ := List.getElem?_eq_some_iff.mp hnext
  obtain rfl : i = 0 := by simpa using hi
  exact hspares

end Session

end Abacus
