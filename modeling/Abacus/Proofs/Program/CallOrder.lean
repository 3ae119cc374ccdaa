import Abacus.Program.OfExpr

/-!
# The order of calls

A call site is recorded before those of its arguments, and its call is carried out after theirs.
This module compares the two orders.  `Expr.orderedProgram` lists every call site where its call
is carried out; it is what the stack machine would have to be given for any expression.  The
program that is compiled differs from it in the table of calls alone, and not at all when the two
orders are the same list.

## Main definitions

* `Expr.recordedCalls`, `Expr.performedCalls`: the call sites of an expression in either order
* `Expr.CallsInOrder`: the two are the same list
* `Expr.orderedProgram`: the program with the call sites as they are carried out

## Main results

* `Program.ofExpr_eq`: what is compiled, for any expression
* `Program.ofExpr_eq_orderedProgram_iff`: when it is the ordered program
* `Expr.callsInOrder_of_flat`: calls whose arguments hold no call are in order
-/

namespace Abacus

/-! ### Programs one after another -/

theorem Tables.append_assoc (a b c : Tables) : a ++ b ++ c = a ++ (b ++ c) := by simp

theorem Tables.append_empty (a : Tables) : a ++ empty = a := by simp [empty]

namespace Program

theorem instructions_append (p q : Program) :
    (p ++ q).instructions = p.instructions ++ q.instructions := rfl

theorem tables_append (p q : Program) : (p ++ q).tables = p.tables ++ q.tables := rfl

theorem instructions_append_single (p : Program) (i : Instruction) (rest : List Instruction) :
    (p ++ single i).instructions ++ rest = p.instructions ++ i :: rest := by simp [single]

theorem tables_append_single (p : Program) (i : Instruction) :
    (p ++ single i).tables = p.tables := by simp [single, Tables.empty]

/-- The program with another table of calls. -/
def withCalls (p : Program) (calls : List CallSite) : Program :=
  ⟨p.instructions, { p.tables with calls }⟩

end Program

namespace Expr

/-! ### Shapes of expressions -/

mutual

/-- A minus sign stands behind its operand somewhere in the expression. -/
def hasTrailing : Expr → Bool
  | num _ | var _ => false
  | group inner => hasTrailing inner
  | neg operand => hasTrailing operand
  | trailingNeg _ => true
  | binary _ left right => hasTrailing left || hasTrailing right
  | call _ arguments => hasTrailingAny arguments

/-- The same for one expression of several. -/
def hasTrailingAny : List Expr → Bool
  | [] => false
  | argument :: rest => hasTrailing argument || hasTrailingAny rest

end

mutual

/-- A call stands somewhere in the expression. -/
def hasCall : Expr → Bool
  | num _ | var _ => false
  | group inner => hasCall inner
  | neg operand | trailingNeg operand => hasCall operand
  | binary _ left right => hasCall left || hasCall right
  | call _ _ => true

/-- The same for one expression of several. -/
def hasCallAny : List Expr → Bool
  | [] => false
  | argument :: rest => hasCall argument || hasCallAny rest

end

/-- No call stands inside an argument of another call. -/
def isFlat : Expr → Bool
  | num _ | var _ => true
  | group inner => isFlat inner
  | neg operand | trailingNeg operand => isFlat operand
  | binary _ left right => isFlat left && isFlat right
  | call _ arguments => !hasCallAny arguments

/-! ### The two orders -/

mutual

/-- The call sites in the order in which they are recorded: a call before those in its
arguments. -/
def recordedCalls : Expr → List CallSite
  | num _ | var _ => []
  | group inner => recordedCalls inner
  | neg operand | trailingNeg operand => recordedCalls operand
  | binary _ left right => recordedCalls left ++ recordedCalls right
  | call name arguments => ⟨name, arguments.length⟩ :: recordedCallsAll arguments

/-- The same for several expressions, one after another. -/
def recordedCallsAll : List Expr → List CallSite
  | [] => []
  | argument :: rest => recordedCalls argument ++ recordedCallsAll rest

end

mutual

/-- The call sites in the order in which the calls are carried out: a call after those in its
arguments. -/
def performedCalls : Expr → List CallSite
  | num _ | var _ => []
  | group inner => performedCalls inner
  | neg operand | trailingNeg operand => performedCalls operand
  | binary _ left right => performedCalls left ++ performedCalls right
  | call name arguments => performedCallsAll arguments ++ [⟨name, arguments.length⟩]

/-- The same for several expressions, one after another. -/
def performedCallsAll : List Expr → List CallSite
  | [] => []
  | argument :: rest => performedCalls argument ++ performedCallsAll rest

end

mutual

/-- The calls that are recorded are the calls that are carried out. -/
theorem recordedCalls_perm (e : Expr) : e.recordedCalls.Perm e.performedCalls := by
  match e with
  | num _ | var _ => exact .refl _
  | group inner => exact recordedCalls_perm inner
  | neg operand | trailingNeg operand => exact recordedCalls_perm operand
  | binary _ left right => exact (recordedCalls_perm left).append (recordedCalls_perm right)
  | call _ arguments =>
    exact ((recordedCallsAll_perm arguments).cons _).trans (List.perm_append_singleton _ _).symm

theorem recordedCallsAll_perm (es : List Expr) :
    (recordedCallsAll es).Perm (performedCallsAll es) := by
  match es with
  | [] => exact .refl _
  | e :: rest => exact (recordedCalls_perm e).append (recordedCallsAll_perm rest)

end

/-- No function is called twice. -/
def CallsOnce (e : Expr) : Prop := (e.performedCalls.map CallSite.name).Nodup

instance (e : Expr) : Decidable e.CallsOnce :=
  inferInstanceAs (Decidable (e.performedCalls.map CallSite.name).Nodup)

/-- **The calls are recorded in the order in which they are carried out.** -/
def CallsInOrder (e : Expr) : Prop := e.recordedCalls = e.performedCalls

instance (e : Expr) : Decidable e.CallsInOrder :=
  inferInstanceAs (Decidable (e.recordedCalls = e.performedCalls))

mutual

theorem calls_of_not_hasCall {e : Expr} (h : e.hasCall = false) :
    e.recordedCalls = [] ∧ e.performedCalls = [] := by
  match e with
  | num _ | var _ => exact ⟨rfl, rfl⟩
  | group inner => exact calls_of_not_hasCall (e := inner) h
  | neg operand | trailingNeg operand => exact calls_of_not_hasCall (e := operand) h
  | binary _ left right =>
    simp only [hasCall, Bool.or_eq_false_iff] at h
    have hl := calls_of_not_hasCall h.1
    have hr := calls_of_not_hasCall h.2
    simp [recordedCalls, performedCalls, hl, hr]
  | call _ _ => simp [hasCall] at h

theorem callsAll_of_not_hasCallAny {es : List Expr} (h : hasCallAny es = false) :
    recordedCallsAll es = [] ∧ performedCallsAll es = [] := by
  match es with
  | [] => exact ⟨rfl, rfl⟩
  | e :: rest =>
    simp only [hasCallAny, Bool.or_eq_false_iff] at h
    have he := calls_of_not_hasCall h.1
    have hrest := callsAll_of_not_hasCallAny h.2
    simp [recordedCallsAll, performedCallsAll, he, hrest]

end

/-- Calls whose arguments hold no call are in order. -/
theorem callsInOrder_of_flat {e : Expr} (h : e.isFlat = true) : e.CallsInOrder := by
  unfold CallsInOrder
  induction e using isFlat.induct with
  | case1 | case2 => rfl
  | case3 inner ih => exact ih h
  | case4 operand ih | case5 operand ih => exact ih h
  | case6 op left right ihl ihr =>
    simp only [isFlat, Bool.and_eq_true] at h
    rw [recordedCalls, performedCalls, ihl h.1, ihr h.2]
  | case7 name arguments =>
    -- both orders list the call alone
    have hnone : hasCallAny arguments = false := by simpa [isFlat] using h
    simp [recordedCalls, performedCalls, callsAll_of_not_hasCallAny hnone]

/-! ### The ordered program -/

mutual

/-- **The program that lists each call site where its call is carried out.** -/
def orderedProgram : Expr → Program
  | num value => ⟨[.num], ⟨[value], [], []⟩⟩
  | var name => ⟨[.var], ⟨[], [name], []⟩⟩
  | group inner => orderedProgram inner
  | neg operand => orderedProgram operand ++ .single .neg
  | trailingNeg operand => orderedProgram operand
  | binary op left right =>
    orderedProgram left ++ orderedProgram right ++ .single (.operator op)
  | call name arguments =>
    orderedProgramAll arguments ++ ⟨[.call], ⟨[], [], [⟨name, arguments.length⟩]⟩⟩

/-- The programs of arguments, one after another. -/
def orderedProgramAll : List Expr → Program
  | [] => ⟨[], .empty⟩
  | argument :: rest => orderedProgram argument ++ orderedProgramAll rest

end

mutual

theorem calls_orderedProgram (e : Expr) : e.orderedProgram.tables.calls = e.performedCalls := by
  match e with
  | num _ | var _ => rfl
  | group inner => exact calls_orderedProgram inner
  | trailingNeg operand => exact calls_orderedProgram operand
  | neg operand =>
    simp [orderedProgram, performedCalls, Program.single, Tables.empty,
      calls_orderedProgram operand]
  | binary _ left right =>
    simp [orderedProgram, performedCalls, Program.single, Tables.empty,
      calls_orderedProgram left, calls_orderedProgram right]
  | call _ arguments =>
    simp [orderedProgram, performedCalls, calls_orderedProgramAll arguments]

theorem calls_orderedProgramAll (es : List Expr) :
    (orderedProgramAll es).tables.calls = performedCallsAll es := by
  match es with
  | [] => rfl
  | e :: rest =>
    simp [orderedProgramAll, performedCallsAll, calls_orderedProgram e,
      calls_orderedProgramAll rest]

end

end Expr

namespace Program

open Abacus.Expr

mutual

/-- **What is compiled**: the ordered program with the call sites as they are recorded. -/
theorem ofExpr_eq {e : Expr} (h : e.hasTrailing = false) :
    ofExpr e = .ok (e.orderedProgram.withCalls e.recordedCalls) := by
  match e with
  | .num _ | .var _ => rfl
  | .group inner => exact ofExpr_eq (e := inner) h
  | .neg operand =>
    rw [ofExpr, ofExpr_eq (e := operand) h]
    simp [orderedProgram, recordedCalls, withCalls, single, Tables.empty, bind, Except.bind,
      pure, Except.pure]
  | .trailingNeg _ => simp [hasTrailing] at h
  | .binary _ left right =>
    simp only [hasTrailing, Bool.or_eq_false_iff] at h
    rw [ofExpr, ofExpr_eq h.1, ofExpr_eq h.2]
    simp [orderedProgram, recordedCalls, withCalls, single, Tables.empty, bind, Except.bind,
      pure, Except.pure]
  | .call _ arguments =>
    have harguments : hasTrailingAny arguments = false := h
    rw [ofExpr, ofArguments_eq harguments]
    simp [orderedProgram, recordedCalls, withCalls, single, Tables.empty, bind, Except.bind,
      pure, Except.pure]

theorem ofArguments_eq {es : List Expr} (h : hasTrailingAny es = false) :
    ofArguments es = .ok ((orderedProgramAll es).withCalls (recordedCallsAll es)) := by
  match es with
  | [] => rfl
  | e :: rest =>
    simp only [hasTrailingAny, Bool.or_eq_false_iff] at h
    rw [ofArguments, ofExpr_eq h.1, ofArguments_eq h.2]
    simp [orderedProgramAll, recordedCallsAll, withCalls, bind, Except.bind, pure, Except.pure]

end

/-- The ordered program is what is compiled exactly when the calls are recorded in order. -/
theorem ofExpr_eq_orderedProgram_iff {e : Expr} (h : e.hasTrailing = false) :
    ofExpr e = .ok e.orderedProgram ↔ e.CallsInOrder := by
  rw [ofExpr_eq h, Except.ok.injEq, CallsInOrder, ← calls_orderedProgram]
  constructor
  · intro heq
    exact congrArg (fun p => p.tables.calls) heq
  -- the two programs differ in the table of calls alone
  · intro hcalls
    rw [withCalls, hcalls]

end Program

end Abacus
