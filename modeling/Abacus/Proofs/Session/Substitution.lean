import Abacus.Proofs.Machine.Levels
import Abacus.Proofs.Program.Substitution
import Abacus.Proofs.Session.Bodies

/-!
# Calls and their bodies

A call of a function of a session comes to what its body comes to as a line of its own, with the
arguments written in place of the parameters.  So a parameter hides a variable of the same name and
a built-in constant, but no function; and where a call is made makes no difference, for the
parameters that stand for something there are not seen in the body.

The one difference between the two is that the call takes a level.  It may fail because there are
none left, and the body alone may not.

## Main results

* `Session.AtRest.calculateExpr_fst`: an expression, and the formula that it is made into
* `Session.call_is_substitution`: a call, and its body
-/

namespace Abacus

namespace Session

variable {s : Session}

/-- What comes of an expression is what comes of the formula that it is made into. -/
theorem AtRest.calculateExpr_fst (h : s.AtRest) {e : Expr} {formula : Formula}
    (hformula : Formula.ofExpr? s.strategy e = .ok formula) :
    (s.perform (calculateExpr s.strategy s.globals.environment e)).1 =
      (formula.evaluate s.globals.environment s.machine).1.mapError Failure.runtime := by
  let ready : Run Failure Formula := Run.mapError Failure.compile (Formula.ofExpr s.strategy e)
  have hready : (ready s.machine).1 = .ok formula := by
    rw [Run.fst_mapError_eq_ok_iff, Formula.ofExpr_fst, hformula]
  -- nothing but reports is made in the meantime
  have hleft : (s.perform ready).2.AtRest :=
    h.perform ((Formula.ofExpr_reentrant s.strategy e).mapError _)
  have hsame : (formula.evaluate s.globals.environment (ready s.machine).2).1 =
      (formula.evaluate s.globals.environment s.machine).1 :=
    (s.globals.reentrant_environment.formula formula).fst_eq
      (hleft.callDepth.trans h.callDepth.symm) hleft.pool h.pool
  change ((ready >>= fun formula =>
    Run.mapError Failure.runtime (formula.evaluate s.globals.environment)) s.machine).1 = _
  rw [← hsame, Run.bind_apply]
  rcases hx : ready s.machine with ⟨r, m⟩
  rw [hx] at hready
  change r = .ok formula at hready
  subst hready
  rfl

/-- **A call comes to what its body comes to**, with the arguments in place of the parameters, as a
line of its own; its error is wrapped once.  It may fail for want of levels instead.  All
occurrences of the parameters are replaced, and the names of functions stay.  A call that is made
anywhere else, with whatever parameters standing for something there, comes to the same. -/
theorem call_is_substitution (hs : s.Reachable) {name : String} {f : UserFunction}
    (hf : s.globals.functions.find? name = some f) {args : List Float}
    (hargs : args.length = f.parameters.length) :
    let values : Bindings Float := .ofList (f.parameters.zip args)
    f.parameters.Nodup ∧
    (∀ parameter value, (parameter, value) ∈ f.parameters.zip args →
      (Expr.var parameter).substitute values = .num value) ∧
    (∃ e, Formula.ofExpr? s.strategy e = .ok f.body) ∧
    ∀ e, Formula.ofExpr? s.strategy e = .ok f.body →
      (e.substitute values).callees = e.callees ∧
      (e.substitute values).variableNames =
        e.variableNames.filter (fun other => decide (other ∉ f.parameters)) ∧
      ∃ result : Except RuntimeError Float,
        (s.perform (calculateExpr s.strategy s.globals.environment (e.substitute values))).1 =
          result.mapError Failure.runtime ∧
        ((s.invoke (.user f) args).1 = result.mapError FunctionError.runtime ∨
          ∃ err, (s.invoke (.user f) args).1 = .error err ∧ err.IsTooDeep) ∧
        ∀ (others : Bindings Float) (m : Machine), m.pool.AtRest →
          ∃ call, (s.globals.environment.bind others).function? name = some call ∧
            ((call args m).1 = result.mapError FunctionError.runtime ∨
              ∃ err, (call args m).1 = .error err ∧ err.IsTooDeep) := by
  intro values
  obtain ⟨hnodup, hbody⟩ := hs.comesFrom hf
  refine ⟨hnodup, fun parameter value hmem => ?_, hbody, fun e he => ?_⟩
  · exact Expr.substitute_var_of_some (Bindings.find?_ofList_zip_of_mem hnodup hargs hmem)
  · have hrest := hs.atRest
    obtain ⟨filled, hfilled⟩ := Formula.exists_ofExpr?_substitute values he
    refine ⟨e.callees_substitute values, ?_,
      (filled.evaluate s.globals.environment s.machine).1, hrest.calculateExpr_fst hfilled,
      ?_, fun others m hm => ⟨f.call (some s.globals), Globals.function?_of_find? hf _, ?_⟩⟩
    · rw [Expr.variableNames_substitute]
      refine List.filter_congr fun other _ => ?_
      rw [Bool.eq_iff_iff, Option.isNone_iff_eq_none, decide_eq_true_iff]
      exact Bindings.find?_ofList_zip_eq_none_iff hargs
    · exact f.call_or_isTooDeep s.globals hargs (Formula.evaluate_substitute values he hfilled)
        hrest.pool hrest.pool hrest.callDepth
    · exact f.call_or_isTooDeep s.globals hargs (Formula.evaluate_substitute values he hfilled)
        hm hrest.pool hrest.callDepth

/-- Parameters with the names of a variable, of a constant and of a function, and a function in the
body that looks up the variable. -/
theorem call_is_substitution_hidden :
    let s := (new .stackMachine ⟨1, 0⟩ .standard).after
      [.execute "x = 100", .execute "y = 10", .execute "x(t) = 2 * t", .execute "g(y) = y + x",
        .execute "f(x, Pi) = x(x) + g(x) + Pi * y"]
    s.Reachable ∧ ∃ f, s.globals.functions.find? "f" = some f ∧ f.parameters.length = 2 ∧
      (s.invoke (.user f) [1.0, 3.0]).1 = .ok 133.0 ∧
      ∃ e, Formula.ofExpr? s.strategy e = .ok f.body ∧
        (s.perform (calculateExpr s.strategy s.globals.environment
          (e.substitute (.ofList (f.parameters.zip [1.0, 3.0]))))).1 = .ok 133.0 := by
  intro s
  have hs : s.Reachable := (Reachable.new _ _ _).after _
  have hvalue : (s.globals.functions.find? "f").map (fun f =>
      (f.parameters.length, (s.invoke (.user f) [1.0, 3.0]).1)) = some (2, .ok 133.0) := by
    subst s
    decide +kernel
  obtain ⟨f, hf, hparts⟩ := Option.map_eq_some_iff.mp hvalue
  obtain ⟨hlength, hcall⟩ := Prod.mk.inj hparts
  have hargs : [1.0, 3.0].length = f.parameters.length := hlength.symm
  obtain ⟨-, -, ⟨e, he⟩, hall⟩ := call_is_substitution hs hf hargs
  obtain ⟨-, -, result, hdirect, hresult, -⟩ := hall e he
  refine ⟨hs, f, hf, hlength, hcall, e, he, hdirect.trans ?_⟩
  rw [hcall] at hresult
  rcases hresult with hresult | ⟨err, herr, -⟩
  · cases result with
    | error cause => cases hresult
    | ok value =>
      cases hresult
      rfl
  · cases herr

end Session

end Abacus
