import Abacus.Proofs.Session.Agreement

/-!
# Two sessions side by side

A session that compiles and a session that keeps trees, given the same lines, show the same: the
same outcomes, the same variables with the same values, and the same names of functions.  This is
a simulation.  Sessions agree when what they have defined and their machines do; a step leads from
sessions that agree to sessions that agree, with the same outcome; and new sessions agree.

Lines are taken whose calls are recorded in the order in which they are carried out, of which
lines with no call inside an argument are the plainest case.

## Main definitions

* `Session.Step`, `Session.observe`: steps, and what is seen after each of them
* `Session.Agree`: agreement
* `FlatLine`: no call stands inside an argument in what a line evaluates

## Main results

* `Session.step_agree`: one step
* `Session.observe_eq_of_flat`: all steps from new sessions
-/

namespace Abacus

/-! ### Reading and evaluating -/

/-- The calls of what the text is read as are in order. -/
def InOrder (text : String) : Prop := ∀ e, parse text = .ok e → e.CallsInOrder

/-- An expression is read alike, and is what its text is parsed as. -/
theorem readExpr_agree (text : String) :
    Run.Agree (fun e e' => e = e' ∧ parse text = .ok e) (readExpr text) (readExpr text) := by
  intro m m' hm
  unfold readExpr
  cases parse text with
  | error e => exact ⟨.error e, hm⟩
  | ok e => exact ⟨.ok ⟨rfl, rfl⟩, hm.idleEmpty, hm.callDepth⟩

theorem calculate_agree {text : String} (h : InOrder text) {env env' : Environment}
    (henv : env.Agree env') :
    Run.Agree Eq (calculate .stackMachine env text) (calculate .tree env' text) := by
  refine ((readExpr_agree text).mapError _).bind ?_
  rintro e _ ⟨rfl, hparse⟩
  have hformula := Formula.ofExpr_agree (Expr.hasTrailing_of_parse hparse) (h e hparse)
  refine (hformula.mapError _).bind fun formula formula' hagree => ?_
  exact (Formula.evaluate_agree hagree henv).mapError _

namespace Definition

/-- The same value for the same variable, or functions that agree. -/
inductive Agree : Definition → Definition → Prop where
  | ofVariable (name : String) (value : Float) :
    Agree (.ofVariable name value) (.ofVariable name value)
  | ofFunction {f f' : UserFunction} (h : f.Agree f') : Agree (.ofFunction f) (.ofFunction f')

variable {g g' : Globals}

theorem ofTarget_agree (hg : g.Agree g') (target : Expr) {body : Expr}
    (htrailing : body.hasTrailing = false) (inOrder : body.CallsInOrder) :
    Run.Agree Agree (ofTarget .stackMachine g target body) (ofTarget .tree g' target body) := by
  have hformula := Formula.ofExpr_agree htrailing inOrder
  cases target with
  -- a variable: the value of the body now
  | var name =>
    refine (hformula.mapError _).bind fun formula formula' hagree => ?_
    refine ((Formula.evaluate_agree hagree (Globals.environment_agree hg)).mapError _).bind ?_
    rintro value _ rfl
    exact .pure (.ofVariable name value)
  -- a function: the body itself, in either form
  | call name arguments =>
    refine (Run.Agree.answer (answers_refl _)).bind ?_
    rintro parameters _ rfl
    refine (hformula.mapError _).bind fun formula formula' hagree => ?_
    exact .pure (.ofFunction ⟨rfl, rfl, hagree⟩)
  | num _ | group _ | neg _ | trailingNeg _ | binary _ _ _ => exact .throw _

/-- **A line defines what agrees.** -/
theorem read_agree (hg : g.Agree g') {line : String}
    (h : ∀ target body, Text.cutAt? '=' line.toList = some (target, body) →
      InOrder (String.ofList body)) :
    Run.Agree Agree (read .stackMachine g line) (read .tree g' line) := by
  unfold read
  cases hcut : Text.cutAt? '=' line.toList with
  | none => exact .throw _
  | some parts =>
    obtain ⟨target, body⟩ := parts
    dsimp only
    split
    · exact .throw _
    -- the target is read first, then the body
    · refine ((readExpr_agree _).mapError _).bind ?_
      rintro target' _ ⟨rfl, -⟩
      refine ((readExpr_agree _).mapError _).bind ?_
      rintro body' _ ⟨rfl, hbody⟩
      exact ofTarget_agree hg target' (Expr.hasTrailing_of_parse hbody)
        (h target body hcut body' hbody)

variable {d d' : Definition}

theorem Agree.signature_eq (h : d.Agree d') : d.signature = d'.signature := by
  cases h with
  | ofVariable name value => rfl
  | ofFunction h => exact h.signature_eq

theorem Agree.addTo (h : d.Agree d') (hg : g.Agree g') : (d.addTo g).Agree (d'.addTo g') := by
  cases h with
  | ofVariable name value =>
    refine ⟨?_, hg.functions⟩
    show g.values.insert name value = g'.values.insert name value
    rw [hg.values]
  | @ofFunction f f' h =>
    refine ⟨hg.values, ?_⟩
    show (g.functions.insert f.name f).Agree _ (g'.functions.insert f'.name f')
    rw [h.name]
    exact hg.functions.insert f'.name h

end Definition

/-! ### Sessions -/

namespace Session

/-- What a session is asked to do. -/
inductive Step where
  | execute (line : String)
  | clear

/-- A step: what a line leads to, and the session after it. -/
def step (s : Session) : Step → Option (Except Failure Outcome) × Session
  | .execute line => ((s.execute line).1, (s.execute line).2)
  | .clear => (none, s.clear)

/-- What is seen of a session after a step. -/
structure Observation where
  outcome : Option (Except Failure Outcome)
  /-- The variables with their values. -/
  values : Bindings Float
  functionNames : List String

/-- What is seen after each of some steps. -/
def observe (s : Session) : List Step → List Observation
  | [] => []
  | next :: rest =>
    ⟨(s.step next).1, (s.step next).2.globals.values, (s.step next).2.functionNames⟩ ::
      (s.step next).2.observe rest

/-- **The first session compiles what the second keeps as trees.** -/
structure Agree (s s' : Session) : Prop where
  compiles : s.strategy = .stackMachine
  keepsTrees : s'.strategy = .tree
  globals : s.globals.Agree s'.globals
  machine : s.machine.Agree s'.machine

variable {s s' : Session}

theorem agree_new (settings settings' : Settings) (threshold threshold' : Threshold) :
    (new .stackMachine settings threshold).Agree (new .tree settings' threshold') :=
  ⟨rfl, rfl, Globals.agree_empty, StackPool.idleEmpty_new _ _, rfl⟩

namespace Agree

/-- Computations that agree are carried out alike, and leave sessions that agree. -/
theorem perform (h : s.Agree s') {ε α β : Type} {R : α → β → Prop} {x : Run ε α} {y : Run ε β}
    (hxy : Run.Agree R x y) :
    Answers R (s.perform x).1 (s'.perform y).1 ∧ (s.perform x).2.Agree (s'.perform y).2 := by
  obtain ⟨hanswers, hleft⟩ := hxy h.machine
  exact ⟨hanswers, h.compiles, h.keepsTrees, h.globals, hleft⟩

theorem evaluate (h : s.Agree s') {line : String} (inOrder : InOrder line) :
    (s.evaluate line).1 = (s'.evaluate line).1 ∧
      (s.evaluate line).2.Agree (s'.evaluate line).2 := by
  unfold Session.evaluate
  rw [h.compiles, h.keepsTrees]
  obtain ⟨hanswers, hleft⟩ :=
    h.perform (calculate_agree inOrder (Globals.environment_agree h.globals))
  exact ⟨hanswers.eq, hleft⟩

theorem define (h : s.Agree s') {line : String}
    (inOrder : ∀ target body, Text.cutAt? '=' line.toList = some (target, body) →
      InOrder (String.ofList body)) :
    (s.define line).1 = (s'.define line).1 ∧ (s.define line).2.Agree (s'.define line).2 := by
  obtain ⟨hanswers, hleft⟩ := h.perform (Definition.read_agree h.globals inOrder)
  unfold Session.define
  rw [h.compiles, h.keepsTrees]
  rcases hx : s.perform (Definition.read .stackMachine s.globals line) with ⟨r, t⟩
  rcases hy : s'.perform (Definition.read .tree s'.globals line) with ⟨r', t'⟩
  rw [hx, hy] at hanswers hleft
  dsimp only at hanswers hleft
  cases hanswers with
  -- a line that fails defines nothing
  | error e => exact ⟨rfl, hleft⟩
  | @ok d d' hd =>
    refine ⟨congrArg Except.ok hd.signature_eq, hleft.compiles, hleft.keepsTrees,
      hd.addTo hleft.globals, ?_⟩
    exact ⟨hleft.machine.idleEmpty, hleft.machine.callDepth⟩

end Agree

end Session

/-! ### Lines -/

/-- The expression a line evaluates or makes a function of, if it can be read. -/
def bodyOfLine? (line : String) : Option Expr :=
  if isDefinition line then
    (Text.cutAt? '=' line.toList).bind fun parts => (parse (String.ofList parts.2)).toOption
  else (parse line).toOption

/-- **No call stands inside an argument** in what the line evaluates or makes a function of. -/
def FlatLine (line : String) : Prop := ∀ e ∈ bodyOfLine? line, e.isFlat = true

instance (line : String) : Decidable (FlatLine line) :=
  inferInstanceAs (Decidable (∀ e ∈ bodyOfLine? line, e.isFlat = true))

/-- The calls in what the line evaluates or makes a function of are in order. -/
def LineInOrder (line : String) : Prop := ∀ e ∈ bodyOfLine? line, e.CallsInOrder

theorem FlatLine.inOrder {line : String} (h : FlatLine line) : LineInOrder line :=
  fun e he => Expr.callsInOrder_of_flat (h e he)

theorem LineInOrder.inOrder {line : String} (h : LineInOrder line)
    (hexpression : isDefinition line = false) : InOrder line := by
  intro e he
  refine h e ?_
  rw [bodyOfLine?, hexpression, he]
  rfl

theorem LineInOrder.inOrder_body {line : String} (h : LineInOrder line)
    (hdefinition : isDefinition line = true) {target body : List Char}
    (hcut : Text.cutAt? '=' line.toList = some (target, body)) : InOrder (String.ofList body) := by
  intro e he
  refine h e ?_
  rw [bodyOfLine?, hdefinition, hcut]
  show e ∈ (parse (String.ofList body)).toOption
  rw [he]
  rfl

namespace Session

variable {s s' : Session}

theorem Agree.execute (h : s.Agree s') {line : String} (inOrder : LineInOrder line) :
    (s.execute line).1 = (s'.execute line).1 ∧ (s.execute line).2.Agree (s'.execute line).2 := by
  unfold Session.execute
  split
  · next hdefinition =>
    obtain ⟨hresult, hleft⟩ :=
      h.define fun target body hcut => inOrder.inOrder_body hdefinition hcut
    exact ⟨congrArg (·.map Outcome.defined) hresult, hleft⟩
  · next hexpression =>
    obtain ⟨hresult, hleft⟩ := h.evaluate (inOrder.inOrder (Bool.eq_false_iff.mpr hexpression))
    exact ⟨congrArg (·.map Outcome.value) hresult, hleft⟩

theorem Agree.clear (h : s.Agree s') : s.clear.Agree s'.clear :=
  ⟨h.compiles, h.keepsTrees, Globals.agree_empty, h.machine⟩

/-- **A step keeps sessions in agreement**, and leads to the same. -/
theorem step_agree (h : s.Agree s') (next : Step)
    (inOrder : ∀ line, next = .execute line → LineInOrder line) :
    (s.step next).1 = (s'.step next).1 ∧ (s.step next).2.Agree (s'.step next).2 := by
  cases next with
  | execute line =>
    obtain ⟨hresult, hleft⟩ := h.execute (inOrder line rfl)
    exact ⟨congrArg some hresult, hleft⟩
  | clear => exact ⟨rfl, h.clear⟩

/-- Sessions that agree show the same, however many steps they take. -/
theorem observe_eq (h : s.Agree s') (steps : List Step)
    (inOrder : ∀ line, .execute line ∈ steps → LineInOrder line) :
    s.observe steps = s'.observe steps := by
  -- Induction on the steps, for any sessions that agree.
  induction steps generalizing s s' with
  | nil => rfl
  | cons next rest ih =>
    obtain ⟨houtcome, hleft⟩ := step_agree h next fun line hline =>
      inOrder line (hline ▸ List.mem_cons_self)
    have hrest := ih hleft fun line hline => inOrder line (List.mem_cons_of_mem next hline)
    have hnames : (s.step next).2.functionNames = (s'.step next).2.functionNames :=
      hleft.globals.functions.names_eq
    rw [observe, observe, houtcome, hleft.globals.values, hnames, hrest]

/-- **Two new sessions show the same** after every step, one compiling and the other keeping trees,
when no call stands inside an argument. -/
theorem observe_eq_of_flat (steps : List Step)
    (flat : ∀ line, .execute line ∈ steps → FlatLine line)
    (settings settings' : Settings) (threshold threshold' : Threshold) :
    (new .stackMachine settings threshold).observe steps =
      (new .tree settings' threshold').observe steps :=
  observe_eq (agree_new settings settings' threshold threshold') steps fun line hline =>
    (flat line hline).inOrder

/-- Functions that call one another, one of them defined later and then anew, an error that leaves
two calls, and a call without end. -/
theorem observe_eq_of_flat_calls :
    let steps : List Step :=
      [.execute "x = 2", .execute "f(n) = x * g(n) + 1", .execute "f(3)",
        .execute "g(n) = 1 / (n - x)", .execute "f(3)", .execute "f(2)", .execute "x = 5",
        .execute "f(3)", .execute "g(x, x) = 1", .execute "g(n) = f(n)", .execute "g(1)", .clear,
        .execute "f(3)"]
    (∀ line, .execute line ∈ steps → FlatLine line) ∧
      (new .stackMachine ⟨1, 0⟩ .standard).observe steps =
        (new .tree .default .standard).observe steps := by
  intro steps
  have flat : ∀ line, .execute line ∈ steps → FlatLine line := by
    intro line hline
    simp only [steps, List.mem_cons, Step.execute.injEq, reduceCtorEq, List.not_mem_nil, or_false,
      false_or] at hline
    rcases hline with rfl | rfl | rfl | rfl | rfl | rfl | rfl | rfl | rfl | rfl | rfl | rfl <;>
      decide +kernel
  exact ⟨flat, observe_eq_of_flat steps flat ⟨1, 0⟩ .default .standard .standard⟩

end Session

end Abacus
