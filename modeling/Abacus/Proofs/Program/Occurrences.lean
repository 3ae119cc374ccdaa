import Abacus.Proofs.Machine.CallDepth
import Abacus.Proofs.Program.Instructions

/-!
# Names that occur

An expression has its environment looked up for the names that occur in it and for no others, the
variables among the variables and the called functions among the functions.  In environments that
are the same as far as these names go, it is the same computation.  This holds of expressions, of
whatever instructions with the names in their tables, and so of formulas; and what an expression is
compiled to has the names that occur in the expression.

## Main definitions

* `Expr.variableNames`, `Formula.variableNames`: the names of variables that occur
* `Environment.SameOn`: environments that are the same for some names

## Main results

* `Expr.evaluate_congr`, `Exec.exec_congr`, `Formula.evaluate_congr`: the same computation
* `Program.names_of_ofExpr`: the names that occur in a compiled program
-/

namespace Abacus

namespace Environment

/-- **The environments are the same for some names**, of variables and of functions. -/
structure SameOn (names callees : List String) (env env' : Environment) : Prop where
  value? : ∀ name ∈ names, env.value? name = env'.value? name
  function? : ∀ name ∈ callees, env.function? name = env'.function? name

theorem SameOn.mono {names names' callees callees' : List String} {env env' : Environment}
    (h : SameOn names callees env env') (hnames : names' ⊆ names) (hcallees : callees' ⊆ callees) :
    SameOn names' callees' env env' where
  value? name hname := h.value? name (hnames hname)
  function? name hname := h.function? name (hcallees hname)

end Environment

/-! ### Expressions -/

namespace Expr

mutual

/-- **The names of the variables** that occur in an expression. -/
def variableNames : Expr → List String
  | num _ => []
  | var name => [name]
  | group inner => variableNames inner
  | neg operand | trailingNeg operand => variableNames operand
  | binary _ left right => variableNames left ++ variableNames right
  | call _ arguments => variableNamesAll arguments

/-- The same for several expressions, one after another. -/
def variableNamesAll : List Expr → List String
  | [] => []
  | argument :: rest => variableNames argument ++ variableNamesAll rest

end

variable {env env' : Environment}

mutual

/-- **An expression is the same computation** in environments that are the same for the names that
occur in it. -/
theorem evaluate_congr {e : Expr} (h : env.SameOn e.variableNames e.callees env') :
    e.evaluate env = e.evaluate env' := by
  match e with
  | .num _ | .trailingNeg _ => rw [evaluate, evaluate]
  | .var name => rw [evaluate, evaluate, h.value? name List.mem_cons_self]
  | .group inner =>
    rw [evaluate, evaluate]
    exact evaluate_congr (e := inner) h
  | .neg operand =>
    rw [evaluate, evaluate, evaluate_congr (e := operand) h]
  | .binary op left right =>
    rw [variableNames, callees, recordedCalls, List.map_append] at h
    have hleft := h.mono (List.subset_append_left _ _) (List.subset_append_left _ _)
    have hright := h.mono (List.subset_append_right _ _) (List.subset_append_right _ _)
    rw [evaluate, evaluate, evaluate_congr hleft, evaluate_congr hright]
  | .call name arguments =>
    rw [variableNames, callees, recordedCalls, List.map_cons] at h
    have harguments := h.mono (List.Subset.refl _) (List.subset_cons_self _ _)
    rw [evaluate, evaluate, evaluateAll_congr harguments, h.function? name List.mem_cons_self]

theorem evaluateAll_congr {es : List Expr}
    (h : env.SameOn (variableNamesAll es) ((recordedCallsAll es).map (·.name)) env') :
    evaluateAll env es = evaluateAll env' es := by
  match es with
  | [] => rw [evaluateAll, evaluateAll]
  | e :: rest =>
    rw [variableNamesAll, recordedCallsAll, List.map_append] at h
    have hfirst := h.mono (List.subset_append_left _ _) (List.subset_append_left _ _)
    have hrest := h.mono (List.subset_append_right _ _) (List.subset_append_right _ _)
    rw [evaluateAll, evaluateAll, evaluate_congr hfirst, evaluateAll_congr hrest]

end

end Expr

/-! ### Instructions -/

namespace Tables

/-- The names of the functions in the table of call sites. -/
def callees (tables : Tables) : List String := tables.calls.map (·.name)

end Tables

theorem CarriesOut.names_subset {env : Environment} {m m' : Machine} {i : Instruction}
    {shown : String} {frame frame' : Frame} (h : CarriesOut env m i shown frame frame' m') :
    frame'.tables.names ⊆ frame.tables.names ∧
      frame'.tables.callees ⊆ frame.tables.callees := by
  cases h with
  | num | operator | neg => exact ⟨List.Subset.refl _, List.Subset.refl _⟩
  | var => exact ⟨List.subset_cons_self _ _, List.Subset.refl _⟩
  | call => exact ⟨List.Subset.refl _, List.subset_cons_self _ _⟩

namespace Exec

variable {env env' : Environment}

/-- One instruction looks for the name that is next in its table. -/
theorem step_congr {frame : Frame}
    (h : env.SameOn frame.tables.names frame.tables.callees env') (i : Instruction) :
    outcome (step env i) frame = outcome (step env' i) frame := by
  obtain ⟨stack, ⟨values, names, calls⟩⟩ := frame
  cases i with
  | num | operator _ | neg => rfl
  | var =>
    cases names with
    | nil => rfl
    | cons name names =>
      have hname : env.SameOn [name] [] env' :=
        h.mono (List.cons_subset.mpr ⟨List.mem_cons_self, List.nil_subset _⟩) (List.nil_subset _)
      rw [outcome_var, outcome_var, Expr.evaluate_congr (e := .var name) hname]
  | call =>
    cases calls with
    | nil => rfl
    | cons site calls =>
      rw [outcome_step_call, outcome_step_call, h.function? site.name List.mem_cons_self]

/-- **Instructions are the same computation** in environments that are the same for the names in
the tables. -/
theorem exec_congr {frame : Frame}
    (h : env.SameOn frame.tables.names frame.tables.callees env') (is : List Instruction) :
    outcome (exec env is) frame = outcome (exec env' is) frame := by
  induction is generalizing frame with
  | nil => rfl
  | cons i rest ih =>
    rw [outcome_cons, outcome_cons, step_congr h]
    refine Run.bind_congr_of_ok fun m left m' hstep => ih ?_
    -- no names are added to the tables
    obtain ⟨shown, hcarries⟩ := exists_carriesOut hstep
    obtain ⟨hnames, hcallees⟩ := hcarries.names_subset
    exact h.mono hnames hcallees

end Exec

namespace Program

theorem run_congr {env env' : Environment} {p : Program}
    (h : env.SameOn p.tables.names p.tables.callees env') : p.run env = p.run env' := by
  funext m
  have hexec : Exec.outcome (exec env p.instructions) ⟨m.borrowStack.1, p.tables⟩ =
      Exec.outcome (exec env' p.instructions) ⟨m.borrowStack.1, p.tables⟩ :=
    Exec.exec_congr h p.instructions
  rw [run_eq, run_eq, hexec]

mutual

theorem names_orderedProgram (e : Expr) : e.orderedProgram.tables.names = e.variableNames := by
  match e with
  | .num _ | .var _ => rfl
  | .group inner => exact names_orderedProgram inner
  | .neg operand =>
    rw [Expr.orderedProgram, tables_append_single, names_orderedProgram operand, Expr.variableNames]
  | .trailingNeg operand => exact names_orderedProgram operand
  | .binary op left right =>
    rw [Expr.orderedProgram, tables_append_single, tables_append, Tables.append_def,
      Expr.variableNames, ← names_orderedProgram left, ← names_orderedProgram right]
  | .call name arguments =>
    rw [Expr.orderedProgram, tables_append, Tables.append_def, Expr.variableNames,
      ← names_orderedProgramAll arguments]
    exact List.append_nil _

theorem names_orderedProgramAll (es : List Expr) :
    (Expr.orderedProgramAll es).tables.names = Expr.variableNamesAll es := by
  match es with
  | [] => rfl
  | e :: rest =>
    rw [Expr.orderedProgramAll, tables_append, Tables.append_def, Expr.variableNamesAll,
      ← names_orderedProgram e, ← names_orderedProgramAll rest]

end

/-- **What is compiled has the variables of the expression**, in the order in which they occur. -/
theorem names_of_ofExpr {e : Expr} {p : Program} (h : ofExpr e = .ok p) :
    p.tables.names = e.variableNames := by
  rw [ofExpr_eq (hasTrailing_of_ofExpr h)] at h
  cases h
  exact names_orderedProgram e

end Program

/-! ### Formulas -/

namespace Formula

/-- The names of the variables that occur in a formula. -/
def variableNames : Formula → List String
  | tree e => e.variableNames
  | compiled p => p.tables.names

/-- **A formula is the same computation** in environments that are the same for the names that
occur in it. -/
theorem evaluate_congr {env env' : Environment} {formula : Formula}
    (h : env.SameOn formula.variableNames formula.callees env') :
    formula.evaluate env = formula.evaluate env' := by
  cases formula with
  | tree e => exact Expr.evaluate_congr h
  | compiled p => exact Program.run_congr h

/-- What an expression is made into has the variables of the expression. -/
theorem variableNames_of_ofExpr {strategy : Strategy} {e : Expr} {formula : Formula}
    {m m' : Machine} (h : ofExpr strategy e m = (.ok formula, m')) :
    formula.variableNames = e.variableNames := by
  rcases eq_of_ofExpr h with rfl | ⟨p, hp, rfl⟩
  · rfl
  · exact Program.names_of_ofExpr hp

end Formula

end Abacus
