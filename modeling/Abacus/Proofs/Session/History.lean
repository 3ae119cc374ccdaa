import Abacus.Proofs.Machine.Reentrancy
import Abacus.Session

/-!
# Lines that leave no trace

Between lines a session's machine is at rest: no call is in progress, and all stacks that wait are
empty.  What a computation answers then does not depend on the machine, and so all that a session
remembers are its definitions.  A line that fails, or that has a value, leaves these alone.  So a
session that was given such a line and one that was not can not be told apart by whatever they are
asked later.

The sizes of the pool are never changed.  Whether a session asks for too much memory is thus a
question about its settings.

## Main definitions

* `Session.Request`, `Session.Reply`, `Session.answer`: what can be asked of a session
* `Session.Reachable`, `Session.asked`: what a new session may become
* `Session.View`, `Session.replies`: what is seen of a session that is asked one thing after another
* `Session.Alike`: the same definitions, and machines at rest

## Main results

* `Session.Alike.answer`: one request
* `Session.Reachable.atRest`: any requests to a new session
* `Session.isAllocatable_asked`: any requests to a session, and the memory that it asks for
* `Session.replies_after_untraced`: lines that fail and lines that have a value
-/

namespace Abacus

/-! ### What lines do to the machine -/

theorem readExpr_reentrant (text : String) : (readExpr text).Reentrant := by
  apply (Run.reentrant_answer _).bind
  intro e
  apply (Run.reentrant_report _).bind
  intro _
  exact Run.reentrant_pure _

theorem compileExpr_reentrant (e : Expr) : (compileExpr e).Reentrant := by
  apply (Run.reentrant_answer _).bind
  intro p
  apply (Run.reentrant_report _).bind
  intro _
  apply (Run.reentrant_report _).bind
  intro _
  exact Run.reentrant_pure _

theorem compileText_reentrant (text : String) : (compileText text).Reentrant := by
  apply ((readExpr_reentrant text).mapError _).bind
  intro e
  exact (compileExpr_reentrant e).mapError _

theorem Formula.ofExpr_reentrant (strategy : Strategy) (e : Expr) :
    (Formula.ofExpr strategy e).Reentrant := by
  cases strategy with
  | tree => exact Run.reentrant_pure _
  | stackMachine =>
    apply (compileExpr_reentrant e).bind
    intro p
    exact Run.reentrant_pure _

theorem calculate_reentrant (strategy : Strategy) {env : Environment} (henv : env.Reentrant)
    (text : String) : (calculate strategy env text).Reentrant := by
  apply ((readExpr_reentrant text).mapError _).bind
  intro e
  apply ((Formula.ofExpr_reentrant strategy e).mapError _).bind
  intro formula
  exact (henv.formula formula).mapError _

namespace Definition

theorem ofTarget_reentrant (strategy : Strategy) (g : Globals) (target body : Expr) :
    (ofTarget strategy g target body).Reentrant := by
  cases target with
  -- the body is evaluated now, in the definitions as they are
  | var name =>
    apply ((Formula.ofExpr_reentrant strategy body).mapError _).bind
    intro formula
    apply ((g.reentrant_environment.formula formula).mapError _).bind
    intro value
    exact Run.reentrant_pure _
  | call name arguments =>
    apply (Run.reentrant_answer _).bind
    intro parameters
    apply ((Formula.ofExpr_reentrant strategy body).mapError _).bind
    intro formula
    exact Run.reentrant_pure _
  | num _ | group _ | neg _ | trailingNeg _ | binary _ _ _ => exact Run.reentrant_answer _

/-- **A defining line** is read, and runs what it has to run. -/
theorem read_reentrant (strategy : Strategy) (g : Globals) (line : String) :
    (read strategy g line).Reentrant := by
  unfold read
  cases Text.cutAt? '=' line.toList with
  | none => exact Run.reentrant_answer _
  | some parts =>
    dsimp only
    split
    · exact Run.reentrant_answer _
    · apply ((readExpr_reentrant _).mapError _).bind
      intro target
      apply ((readExpr_reentrant _).mapError _).bind
      intro body
      exact ofTarget_reentrant strategy g target body

end Definition

namespace Session

/-! ### What can be asked of a session -/

/-- What a session is asked for. -/
inductive Request where
  | execute (line : String)
  | define (line : String)
  | evaluate (line : String)
  | compile (line : String)
  | clear

/-- What a session replies. -/
inductive Reply where
  | outcome (result : Except Failure Outcome)
  | signature (result : Except Failure String)
  | value (result : Except Failure Float)
  | program (result : Except Failure Program)
  | cleared

/-- The reply to a request, and the session after it. -/
def answer (s : Session) : Request → Reply × Session
  | .execute line => (.outcome (s.execute line).1, (s.execute line).2)
  | .define line => (.signature (s.define line).1, (s.define line).2)
  | .evaluate line => (.value (s.evaluate line).1, (s.evaluate line).2)
  | .compile line => (.program (s.compile line).1, (s.compile line).2)
  | .clear => (.cleared, s.clear)

/-- **What a new session may become**, whatever it is asked. -/
inductive Reachable : Session → Prop
  | new (strategy : Strategy) (settings : Settings) (threshold : Threshold) :
    Reachable (.new strategy settings threshold)
  | answer {s : Session} (request : Request) : Reachable s → Reachable (s.answer request).2

/-- What is seen of a session between requests. -/
structure View where
  /-- The variables with their values. -/
  values : Bindings Float
  functionNames : List String

/-- The variables and the names of the functions that are defined. -/
def view (s : Session) : View := ⟨s.globals.values, s.functionNames⟩

/-- What is replied to requests, one after another, and what is seen after each of them. -/
def replies (s : Session) : List Request → List (Reply × View)
  | [] => []
  | next :: later =>
    ((s.answer next).1, (s.answer next).2.view) :: (s.answer next).2.replies later

/-! ### Sessions that can not be told apart -/

/-- No call is in progress, and the stacks of the pool are all there and empty. -/
structure AtRest (s : Session) : Prop where
  callDepth : s.machine.callDepth = 0
  pool : s.machine.pool.AtRest

/-- **The same definitions**, on machines at rest. -/
structure Alike (s s' : Session) : Prop where
  strategy : s.strategy = s'.strategy
  globals : s.globals = s'.globals
  atRest : s.AtRest
  atRest' : s'.AtRest

variable {s s' : Session}

theorem atRest_new (strategy : Strategy) (settings : Settings) (threshold : Threshold) :
    (new strategy settings threshold).AtRest :=
  ⟨rfl, StackPool.atRest_new _ _⟩

theorem AtRest.alike (h : s.AtRest) : s.Alike s := ⟨rfl, rfl, h, h⟩

theorem Alike.view_eq (h : s.Alike s') : s.view = s'.view := by
  rw [view, view, functionNames, functionNames, h.globals]

/-- A computation leaves the machine at rest. -/
theorem AtRest.perform (h : s.AtRest) {ε α : Type} {x : Run ε α} (hx : x.Reentrant) :
    (s.perform x).2.AtRest := by
  obtain ⟨steps, r, huses⟩ := hx 0
  obtain ⟨-, hleft, hafter⟩ := huses.effect h.callDepth h.pool
  refine ⟨hleft, ?_⟩
  change (x s.machine).2.pool.AtRest
  rw [hafter]
  exact huses.nested.atRest_after h.pool

namespace Alike

/-- **A computation answers the same on both machines**, and leaves both at rest. -/
theorem perform (h : s.Alike s') {ε α : Type} {x : Run ε α} (hx : x.Reentrant) :
    (s.perform x).1 = (s'.perform x).1 ∧ (s.perform x).2.Alike (s'.perform x).2 := by
  obtain ⟨steps, r, huses⟩ := hx 0
  obtain ⟨hanswer, -⟩ := huses.effect h.atRest.callDepth h.atRest.pool
  obtain ⟨hanswer', -⟩ := huses.effect h.atRest'.callDepth h.atRest'.pool
  refine ⟨hanswer.trans hanswer'.symm, h.strategy, h.globals, ?_, ?_⟩
  · exact h.atRest.perform hx
  · exact h.atRest'.perform hx

theorem evaluate (h : s.Alike s') (line : String) :
    (s.evaluate line).1 = (s'.evaluate line).1 ∧
      (s.evaluate line).2.Alike (s'.evaluate line).2 := by
  unfold Session.evaluate
  rw [h.strategy, h.globals]
  exact h.perform (calculate_reentrant _ (Globals.reentrant_environment _) line)

theorem define (h : s.Alike s') (line : String) :
    (s.define line).1 = (s'.define line).1 ∧ (s.define line).2.Alike (s'.define line).2 := by
  obtain ⟨hresult, hleft⟩ :=
    h.perform (Definition.read_reentrant s'.strategy s'.globals line)
  unfold Session.define
  rw [h.strategy, h.globals]
  rcases hx : s.perform (Definition.read s'.strategy s'.globals line) with ⟨r, t⟩
  rcases hy : s'.perform (Definition.read s'.strategy s'.globals line) with ⟨r', t'⟩
  rw [hx, hy] at hresult hleft
  change r = r' at hresult
  subst hresult
  cases r with
  | error e => exact ⟨rfl, hleft⟩
  | ok definition =>
    -- the report of a definition leaves the machine at rest
    refine ⟨rfl, hleft.strategy, congrArg definition.addTo hleft.globals, ?_, ?_⟩
    · exact ⟨hleft.atRest.callDepth, hleft.atRest.pool⟩
    · exact ⟨hleft.atRest'.callDepth, hleft.atRest'.pool⟩

theorem execute (h : s.Alike s') (line : String) :
    (s.execute line).1 = (s'.execute line).1 ∧ (s.execute line).2.Alike (s'.execute line).2 := by
  unfold Session.execute
  split
  · obtain ⟨hresult, hleft⟩ := h.define line
    exact ⟨congrArg (·.map Outcome.defined) hresult, hleft⟩
  · obtain ⟨hresult, hleft⟩ := h.evaluate line
    exact ⟨congrArg (·.map Outcome.value) hresult, hleft⟩

theorem clear (h : s.Alike s') : s.clear.Alike s'.clear :=
  ⟨h.strategy, rfl, ⟨h.atRest.callDepth, h.atRest.pool⟩, h.atRest'.callDepth, h.atRest'.pool⟩

/-- **A request** has the same reply, and leads to sessions that can not be told apart. -/
theorem answer (h : s.Alike s') (request : Request) :
    (s.answer request).1 = (s'.answer request).1 ∧
      (s.answer request).2.Alike (s'.answer request).2 := by
  cases request with
  | execute line =>
    obtain ⟨hresult, hleft⟩ := h.execute line
    exact ⟨congrArg Reply.outcome hresult, hleft⟩
  | define line =>
    obtain ⟨hresult, hleft⟩ := h.define line
    exact ⟨congrArg Reply.signature hresult, hleft⟩
  | evaluate line =>
    obtain ⟨hresult, hleft⟩ := h.evaluate line
    exact ⟨congrArg Reply.value hresult, hleft⟩
  | compile line =>
    obtain ⟨hresult, hleft⟩ := h.perform (compileText_reentrant line)
    exact ⟨congrArg Reply.program hresult, hleft⟩
  | clear => exact ⟨rfl, h.clear⟩

/-- So has one request after another. -/
theorem replies_eq (h : s.Alike s') (requests : List Request) :
    s.replies requests = s'.replies requests := by
  -- Induction on the requests, for any sessions that are alike.
  induction requests generalizing s s' with
  | nil => rfl
  | cons next later ih =>
    obtain ⟨hreply, hleft⟩ := h.answer next
    rw [replies, replies, hreply, hleft.view_eq, ih hleft]

end Alike

/-- **A session is at rest** after whatever it was asked. -/
theorem Reachable.atRest (h : s.Reachable) : s.AtRest := by
  induction h with
  | new strategy settings threshold => exact atRest_new strategy settings threshold
  | answer request _ ih =>
    obtain ⟨-, hleft⟩ := ih.alike.answer request
    exact hleft.atRest

/-! ### What is asked of the memory -/

/-- The session after requests, one after another. -/
def asked (s : Session) (requests : List Request) : Session :=
  requests.foldl (fun s next => (s.answer next).2) s

/-- A definition is only reported, which leaves the pool as the reading of its line does. -/
theorem pool_define (s : Session) (line : String) :
    (s.define line).2.machine.pool =
      (s.perform (Definition.read s.strategy s.globals line)).2.machine.pool := by
  unfold define
  rcases s.perform (Definition.read s.strategy s.globals line) with ⟨e | definition, t⟩
  · rfl
  · rfl

namespace AtRest

theorem isAllocatable_perform (h : s.AtRest) {ε α : Type} {x : Run ε α} (hx : x.Reentrant) :
    (s.perform x).2.machine.pool.isAllocatable = s.machine.pool.isAllocatable :=
  hx.isAllocatable_snd h.pool

theorem isAllocatable_define (h : s.AtRest) (line : String) :
    (s.define line).2.machine.pool.isAllocatable = s.machine.pool.isAllocatable := by
  rw [pool_define]
  exact h.isAllocatable_perform (Definition.read_reentrant s.strategy s.globals line)

theorem isAllocatable_evaluate (h : s.AtRest) (line : String) :
    (s.evaluate line).2.machine.pool.isAllocatable = s.machine.pool.isAllocatable :=
  h.isAllocatable_perform (calculate_reentrant _ (Globals.reentrant_environment _) line)

theorem isAllocatable_execute (h : s.AtRest) (line : String) :
    (s.execute line).2.machine.pool.isAllocatable = s.machine.pool.isAllocatable := by
  unfold execute
  split
  · exact h.isAllocatable_define line
  · exact h.isAllocatable_evaluate line

theorem isAllocatable_answer (h : s.AtRest) (request : Request) :
    (s.answer request).2.machine.pool.isAllocatable = s.machine.pool.isAllocatable := by
  cases request with
  | execute line => exact h.isAllocatable_execute line
  | define line => exact h.isAllocatable_define line
  | evaluate line => exact h.isAllocatable_evaluate line
  | compile line => exact h.isAllocatable_perform (compileText_reentrant line)
  | clear => rfl

theorem isAllocatable_asked (h : s.AtRest) (requests : List Request) :
    (s.asked requests).machine.pool.isAllocatable = s.machine.pool.isAllocatable := by
  induction requests generalizing s with
  | nil => rfl
  | cons next later ih =>
    obtain ⟨-, hleft⟩ := h.alike.answer next
    rw [← h.isAllocatable_answer next]
    exact ih hleft.atRest

end AtRest

/-- **Whatever a session is asked**, its requests for memory are those of its settings. -/
theorem isAllocatable_asked (strategy : Strategy) (settings : Settings) (threshold : Threshold)
    (requests : List Request) :
    ((new strategy settings threshold).asked requests).machine.pool.isAllocatable =
      settings.isAllocatable :=
  (atRest_new strategy settings threshold).isAllocatable_asked requests

/-! ### Lines that define nothing -/

theorem define_of_error {line : String} {e : Failure} (h : (s.define line).1 = .error e) :
    (s.define line).2.strategy = s.strategy ∧ (s.define line).2.globals = s.globals := by
  unfold define at h ⊢
  rcases hx : s.perform (Definition.read s.strategy s.globals line) with ⟨e' | definition, t⟩
  · have ht : t = (s.perform (Definition.read s.strategy s.globals line)).2 := by rw [hx]
    subst ht
    exact ⟨rfl, rfl⟩
  · rw [hx] at h
    cases h

/-- A line leaves the definitions alone if it defines nothing. -/
theorem execute_of_undefined {line : String}
    (h : ∀ signature, (s.execute line).1 ≠ .ok (.defined signature)) :
    (s.execute line).2.strategy = s.strategy ∧ (s.execute line).2.globals = s.globals := by
  unfold execute at h ⊢
  by_cases hdefinition : isDefinition line
  · rw [if_pos hdefinition] at h ⊢
    cases hdefine : (s.define line).1 with
    | error e => exact define_of_error hdefine
    | ok signature =>
      refine absurd ?_ (h signature)
      change (s.define line).1.map Outcome.defined = _
      rw [hdefine]
      rfl
  · rw [if_neg hdefinition]
    exact ⟨rfl, rfl⟩

/-- **A line that fails or has a value leaves no trace**: nothing that is asked later tells the
session that was given it from the session that was not. -/
theorem replies_after_untraced (hs : s.Reachable) {line : String}
    (h : (∃ e, (s.execute line).1 = .error e) ∨ ∃ x, (s.execute line).1 = .ok (.value x))
    (later : List Request) :
    (s.execute line).2.view = s.view ∧ (s.execute line).2.replies later = s.replies later := by
  have hundefined : ∀ signature, (s.execute line).1 ≠ .ok (.defined signature) := by
    intro signature hdefined
    rcases h with ⟨e, he⟩ | ⟨x, hx⟩
    · rw [he] at hdefined
      cases hdefined
    · rw [hx] at hdefined
      cases hdefined
  obtain ⟨hstrategy, hglobals⟩ := execute_of_undefined hundefined
  obtain ⟨-, hleft⟩ := hs.atRest.alike.execute line
  have halike : (s.execute line).2.Alike s := ⟨hstrategy, hglobals, hleft.atRest, hs.atRest⟩
  exact ⟨halike.view_eq, halike.replies_eq later⟩

/-- A call without end, in the definition of a variable that exists. -/
theorem replies_after_untraced_loop :
    let s := (((new .stackMachine ⟨1, 0⟩ .standard).answer (.define "y = 2")).2.answer
      (.execute "f(x) = y * f(x + 1)")).2
    s.Reachable ∧ (∃ e, (s.execute "y = f(1)").1 = .error e) ∧
      s.view.values.find? "y" = some 2.0 ∧
      ∀ later, (s.execute "y = f(1)").2.view = s.view ∧
        (s.execute "y = f(1)").2.replies later = s.replies later := by
  intro s
  have hs : s.Reachable := .answer _ (.answer _ (.new _ _ _))
  have hfails : ∃ e, (s.execute "y = f(1)").1 = .error e := by
    have hnone : (s.execute "y = f(1)").1.isOk = false := by
      subst s
      decide +kernel
    cases hresult : (s.execute "y = f(1)").1 with
    | error e => exact ⟨e, rfl⟩
    | ok outcome =>
      rw [hresult] at hnone
      cases hnone
  refine ⟨hs, hfails, ?_, fun later => replies_after_untraced hs (.inl hfails) later⟩
  subst s
  decide +kernel

end Session

end Abacus
