import Abacus.Answer
import Abacus.Proofs.Session.Agreement
import Abacus.Proofs.Session.CallChains

/-!
# Lines that are listed

A line that defines nothing is compiled for its listing before it is executed, and not executed if
that fails.  But compiling fails only where the text can not be read, which executing it would find
out as well: whatever can be read has a program.  And compiling leaves no trace in the session.  So
with and without its listing a line has the same result, and leads to sessions that can not be told
apart.

## Main definitions

* `programOf?`: the program that is listed for a line
* `listingOf`: what is written before the result of a line
* `resultText`, `faultText`: what is written for the result

## Main results

* `exists_ofExpr_of_parse`: what can be read has a program
* `Session.AtRest.executeListed`: a line with its listing and without
-/

namespace Abacus

attribute [ext] Output

/-- **The program that is listed for a line**: that of its expression, if it is one. -/
def programOf? (line : String) : Option Program :=
  if isDefinition line then none
  else (parse line).toOption.bind fun e => (Program.ofExpr e).toOption

/-- What is written before the result of a line. -/
def listingOf (listings : Bool) (line : String) : String :=
  if listings then ((programOf? line).map Program.listing).getD "" else ""

@[simp] theorem listingOf_false (line : String) : listingOf false line = "" := rfl

/-- The value, if there is one. -/
def resultText : Except Failure Outcome → String
  | .ok (.value x) => Decimal.plain x ++ "\n"
  | .ok (.defined _) | .error _ => ""

/-- What went wrong, if anything did. -/
def faultText (colours : Bool) (tag : String) : Except Failure Outcome → String
  | .ok _ => ""
  | .error e => Answer.failureText colours tag e

/-- What is written for a line, with its listing or without. -/
theorem Answer.output_eq (listings colours : Bool) (tag line : String)
    (result : Except Failure Outcome) :
    Answer.output colours tag ⟨if listings then programOf? line else none, result⟩ =
      ⟨listingOf listings line ++ resultText result, faultText colours tag result⟩ := by
  apply Output.ext
  · cases listings <;> rcases result with e | (x | signature) <;>
      simp [output, listingOf, resultText, Output.ofOut, Output.ofErr, Output.nothing]
  · rcases result with e | (x | signature) <;>
      simp [output, faultText, Output.ofOut, Output.ofErr, Output.nothing]

theorem failureText_ne_empty (colours : Bool) (tag : String) (e : Failure) :
    Answer.failureText colours tag e ≠ "" := by
  intro h
  have hchars := congrArg String.toList h
  simp [Answer.failureText] at hchars

theorem exists_ofExpr_of_parse {line : String} {e : Expr} (h : parse line = .ok e) :
    ∃ p, Program.ofExpr e = .ok p :=
  ⟨_, Program.ofExpr_eq (Expr.hasTrailing_of_parse h)⟩

/-- A line that can be read and defines nothing is listed. -/
theorem exists_programOf?_of_parse {line : String} (hline : isDefinition line = false) {e : Expr}
    (h : parse line = .ok e) : ∃ p, Program.ofExpr e = .ok p ∧ programOf? line = some p := by
  obtain ⟨p, hp⟩ := exists_ofExpr_of_parse h
  refine ⟨p, hp, ?_⟩
  rw [programOf?, hline, if_neg Bool.false_ne_true, h]
  exact congrArg Except.toOption hp

namespace Session

variable {s s' s'' : Session}

/-! ### What comes of a line that defines nothing -/

theorem fst_compile_of_ok {line : String} {e : Expr} {p : Program} (h : parse line = .ok e)
    (hp : Program.ofExpr e = .ok p) (s : Session) : (s.compile line).1 = .ok p := by
  change (compileText line s.machine).1 = _
  rw [compileText, Run.bind_apply, mapError_readExpr_apply h]
  dsimp only
  unfold compileExpr
  rw [hp]
  rfl

theorem mapError_readExpr_apply_of_error {text : String} {e : ParseError}
    (h : parse text = .error e) (m : Machine) :
    Run.mapError Failure.parse (readExpr text) m = (.error (.parse e), m) := by
  unfold readExpr
  rw [h]
  rfl

theorem fst_compile_of_error {line : String} {e : ParseError} (h : parse line = .error e)
    (s : Session) : (s.compile line).1 = .error (.parse e) := by
  change (compileText line s.machine).1 = _
  rw [compileText, Run.bind_apply, mapError_readExpr_apply_of_error h]

/-- Executing the line finds out as well that it can not be read. -/
theorem fst_execute_of_error {line : String} (hline : isDefinition line = false) {e : ParseError}
    (h : parse line = .error e) (s : Session) : (s.execute line).1 = .error (.parse e) := by
  have hvalue : (s.evaluate line).1 = .error (.parse e) := by
    change (calculate s.strategy s.globals.environment line s.machine).1 = _
    rw [calculate_eq, Run.bind_apply, mapError_readExpr_apply_of_error h]
  rw [execute, hline, if_neg Bool.false_ne_true]
  change (s.evaluate line).1.map Outcome.value = _
  rw [hvalue]
  rfl

/-! ### Sessions that can not be told apart -/

namespace Alike

theorem symm (h : s.Alike s') : s'.Alike s :=
  ⟨h.strategy.symm, h.globals.symm, h.atRest', h.atRest⟩

theorem trans (h : s.Alike s') (h' : s'.Alike s'') : s.Alike s'' :=
  ⟨h.strategy.trans h'.strategy, h.globals.trans h'.globals, h.atRest, h'.atRest'⟩

theorem takeEvents (h : s.Alike s') : s.takeEvents.2.Alike s' :=
  ⟨h.strategy, h.globals, ⟨h.atRest.callDepth, h.atRest.pool⟩, h.atRest'⟩

end Alike

/-- A line is compiled without a trace. -/
theorem AtRest.compile (h : s.AtRest) (line : String) : (s.compile line).2.Alike s :=
  ⟨rfl, rfl, h.perform (compileText_reentrant line), h⟩

/-- A line that fails leaves no trace either. -/
theorem AtRest.execute_of_error (h : s.AtRest) {line : String} {e : Failure}
    (he : (s.execute line).1 = .error e) : s.Alike (s.execute line).2 := by
  have hundefined : ∀ signature, (s.execute line).1 ≠ .ok (.defined signature) := by
    intro signature hdefined
    rw [he] at hdefined
    cases hdefined
  obtain ⟨hstrategy, hglobals⟩ := execute_of_undefined hundefined
  obtain ⟨-, hleft⟩ := h.alike.execute line
  exact ⟨hstrategy.symm, hglobals.symm, h, hleft.atRest⟩

section

variable {line : String} {t : Session}

theorem executeListed_of_definition (hline : isDefinition line = true) (listings : Bool) :
    s.executeListed listings line = (⟨none, (s.execute line).1⟩, (s.execute line).2) := by
  rw [executeListed, hline, Bool.not_true, Bool.and_false, if_neg Bool.false_ne_true]

theorem executeListed_of_compile_error (hline : isDefinition line = false) {e : Failure}
    (h : s.compile line = (.error e, t)) : s.executeListed true line = (⟨none, .error e⟩, t) := by
  simp only [executeListed, hline, h, Bool.not_false, Bool.and_self, if_true]

theorem executeListed_of_compile_ok (hline : isDefinition line = false) {p : Program}
    (h : s.compile line = (.ok p, t)) :
    s.executeListed true line = (⟨some p, (t.execute line).1⟩, (t.execute line).2) := by
  simp only [executeListed, hline, h, Bool.not_false, Bool.and_self, if_true]

end

/-- **A line with its listing and without** has the same result. -/
theorem AtRest.executeListed (h : s.AtRest) (listings : Bool) (line : String) :
    (s.executeListed listings line).1 =
        ⟨if listings then programOf? line else none, (s.execute line).1⟩ ∧
      (s.executeListed listings line).2.Alike (s.execute line).2 := by
  obtain ⟨-, hleft⟩ := h.alike.execute line
  cases hline : isDefinition line with
  | true =>
    have hnone : programOf? line = none := by rw [programOf?, hline, if_pos rfl]
    rw [executeListed_of_definition hline, hnone, ite_self]
    exact ⟨rfl, hleft⟩
  | false =>
    cases listings with
    | false => exact ⟨rfl, hleft⟩
    | true =>
      have hcompiled := h.compile line
      cases hparse : parse line with
      | error e =>
        have hnone : programOf? line = none := by
          rw [programOf?, hline, if_neg Bool.false_ne_true, hparse]
          rfl
        have hfails := fst_execute_of_error hline hparse s
        rw [executeListed_of_compile_error hline (Prod.ext (fst_compile_of_error hparse s) rfl),
          hnone, hfails]
        exact ⟨rfl, hcompiled.trans (h.execute_of_error hfails)⟩
      | ok e =>
        obtain ⟨p, hp, hsome⟩ := exists_programOf?_of_parse hline hparse
        obtain ⟨hresult, hafter⟩ := hcompiled.execute line
        rw [executeListed_of_compile_ok hline (Prod.ext (fst_compile_of_ok hparse hp s) rfl),
          hsome, hresult]
        exact ⟨rfl, hafter⟩

end Session

end Abacus
