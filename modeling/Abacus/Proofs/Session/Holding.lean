import Abacus.Proofs.Session.Bodies

/-!
# Functions that are taken out of a session

A function may be taken out of a session and called later, whatever the session is asked in the
meantime, and even when the session is over.  It keeps its parameters and its body.  But the names
in the body that are not parameters are looked up in the definitions of the session as they are when
it is called, the name of the function itself among them.  When the session is over there are no
definitions left, and every call is refused.

## Main definitions

* `Holding`: a session, which may be over, and the functions taken out of it
* `Holding.Action`, `Holding.act`: what may happen next
* `Session.Resolves`: what names stand for in the body of a function that is called

## Main results

* `Holding.Sound.act`, `Holding.taken_isPrefix_act`: one action
* `Holding.sound_after`, `Holding.taken_isPrefix_after`: any actions
* `Holding.call_taken`: a call after whatever has happened
-/

namespace Abacus

/-- **A session, and functions that were taken out of it.** -/
structure Holding where
  session : Session
  isOver : Bool
  taken : List KnownFunction

namespace Holding

/-- What may happen next. -/
inductive Action where
  | ask (request : Session.Request)
  /-- Takes the function that a name stands for. -/
  | take (name : String)
  /-- Calls one of the functions that were taken. -/
  | call (i : Nat) (args : List Float)
  /-- The session is over. -/
  | drop

/-- What comes of it. -/
inductive Reply where
  | session (reply : Session.Reply)
  | taken (found : Bool)
  | called (result : Except FunctionError Float)
  | dropped
  /-- There is no such function, or no session any more. -/
  | gone

/-- A new session, of which nothing has been taken. -/
def start (strategy : Strategy) (settings : Settings) (threshold : Threshold) : Holding :=
  ⟨.new strategy settings threshold, false, []⟩

/-- The definitions as they are, unless the session is over. -/
def globals? (h : Holding) : Option Globals := if h.isOver then none else some h.session.globals

/-- **One action.**  All calls are made on the machine of the session, which outlives it. -/
def act (h : Holding) : Action → Reply × Holding
  | .ask request =>
    if h.isOver then (.gone, h)
    else
      let (reply, session) := h.session.answer request
      (.session reply, { h with session })
  | .take name =>
    if h.isOver then (.gone, h)
    else
      match h.session.function? name with
      | none => (.taken false, h)
      | some f => (.taken true, { h with taken := h.taken ++ [f] })
  | .call i args =>
    match h.taken[i]? with
    | none => (.gone, h)
    | some f =>
      let (result, session) := h.session.perform (f.call h.globals? args)
      (.called result, { h with session })
  | .drop => (.dropped, { h with isOver := true })

/-- What has become of it after some actions. -/
def after (h : Holding) (actions : List Action) : Holding :=
  actions.foldl (fun h next => (h.act next).2) h

variable {h : Holding} {actions : List Action}

theorem after_append (h : Holding) (before later : List Action) :
    h.after (before ++ later) = (h.after before).after later := List.foldl_append

theorem after_cons (h : Holding) (next : Action) (later : List Action) :
    h.after (next :: later) = (h.act next).2.after later := rfl

/-! ### What is kept -/

/-- What was taken is there after one action more. -/
theorem taken_isPrefix_act (h : Holding) (next : Action) : h.taken <+: (h.act next).2.taken := by
  cases next with
  | ask request =>
    rw [act]
    split
    · exact List.prefix_rfl
    · exact List.prefix_rfl
  | take name =>
    rw [act]
    split
    · exact List.prefix_rfl
    · split
      · exact List.prefix_rfl
      · exact List.prefix_append _ _
  | call i args =>
    rw [act]
    split
    · exact List.prefix_rfl
    · exact List.prefix_rfl
  | drop => exact List.prefix_rfl

/-- **What was taken is kept**, in its place. -/
theorem taken_isPrefix_after (h : Holding) (actions : List Action) :
    h.taken <+: (h.after actions).taken := by
  induction actions generalizing h with
  | nil => exact List.prefix_rfl
  | cons next later ih => exact (h.taken_isPrefix_act next).trans (ih _)

theorem isOver_act_iff {next : Action} :
    (h.act next).2.isOver = true ↔ h.isOver = true ∨ next = .drop := by
  cases next with
  | ask request => by_cases hover : h.isOver <;> simp [act, hover]
  | take name =>
    by_cases hover : h.isOver
    · simp [act, hover]
    · rw [act, if_neg hover]
      split <;> simp [hover]
  | call i args =>
    rw [act]
    split <;> simp
  | drop => simp [act]

/-- **A session is over** as soon as it has been dropped. -/
theorem isOver_after_iff :
    (h.after actions).isOver = true ↔ h.isOver = true ∨ .drop ∈ actions := by
  induction actions generalizing h with
  | nil => simp [after]
  | cons next later ih =>
    rw [after_cons, ih, isOver_act_iff, List.mem_cons, or_assoc, eq_comm (a := next)]

/-! ### What is so after any actions -/

/-- **The definitions are those of a session** that was only asked for what it was asked, and the
machine is at rest. -/
def Sound (h : Holding) : Prop := ∃ s : Session, s.Reachable ∧ h.session.Alike s

theorem sound_start (strategy : Strategy) (settings : Settings) (threshold : Threshold) :
    (start strategy settings threshold).Sound :=
  ⟨_, .new strategy settings threshold, (Session.atRest_new _ _ _).alike⟩

end Holding

theorem UserFunction.reentrant_call? (g : Option Globals) (f : UserFunction) (args : List Float) :
    (f.call g args).Reentrant := by
  cases g with
  | some g => exact f.reentrant_call g args
  | none =>
    unfold call checked
    dsimp only
    split
    · exact Run.reentrant_answer _
    · exact Run.reentrant_answer _

theorem KnownFunction.reentrant_call (g : Option Globals) (f : KnownFunction) (args : List Float) :
    (f.call g args).Reentrant := by
  cases f with
  | builtin f => exact Run.reentrant_answer _
  | user f => exact f.reentrant_call? g args

namespace Holding

variable {h : Holding} {actions : List Action}

/-- One action keeps the definitions sound: calls change nothing but the machine. -/
theorem Sound.act (hsound : h.Sound) (next : Action) : (h.act next).2.Sound := by
  obtain ⟨s, hs, halike⟩ := hsound
  cases next with
  | ask request =>
    rw [Holding.act]
    split
    · exact ⟨s, hs, halike⟩
    · obtain ⟨-, hleft⟩ := halike.answer request
      exact ⟨_, hs.answer request, hleft⟩
  | take name =>
    rw [Holding.act]
    split
    · exact ⟨s, hs, halike⟩
    · split
      · exact ⟨s, hs, halike⟩
      · exact ⟨s, hs, halike⟩
  | call i args =>
    rw [Holding.act]
    split
    · exact ⟨s, hs, halike⟩
    · next f _ =>
      have hrest := halike.atRest.perform (f.reentrant_call h.globals? args)
      exact ⟨s, hs, halike.strategy, halike.globals, hrest, halike.atRest'⟩
  | drop => exact ⟨s, hs, halike⟩

theorem Sound.after (hsound : h.Sound) (actions : List Action) : (h.after actions).Sound := by
  induction actions generalizing h with
  | nil => exact hsound
  | cons next later ih => exact ih (hsound.act next)

theorem sound_after (strategy : Strategy) (settings : Settings) (threshold : Threshold)
    (actions : List Action) : ((start strategy settings threshold).after actions).Sound :=
  (sound_start strategy settings threshold).after actions

/-- A function that is taken comes behind all others that were. -/
theorem taken_act_take {name : String} {f : KnownFunction} (hlive : h.isOver = false)
    (hf : h.session.function? name = some f) :
    (h.act (.take name)).2.taken = h.taken ++ [f] := by
  simp [Holding.act, hlive, hf]

/-- **A function is what it was when it was taken**, whatever happens after that. -/
theorem getElem?_taken {name : String} {f : KnownFunction} (hlive : h.isOver = false)
    (hf : h.session.function? name = some f) (later : List Action) :
    (h.after (.take name :: later)).taken[h.taken.length]? = some f := by
  obtain ⟨more, hmore⟩ := (h.act (.take name)).2.taken_isPrefix_after later
  rw [after_cons, ← hmore, taken_act_take hlive hf, List.append_assoc,
    List.getElem?_append_right (Nat.le_refl _), Nat.sub_self]
  rfl

theorem act_call {i : Nat} {f : KnownFunction} (hf : h.taken[i]? = some f) (args : List Float) :
    (h.act (.call i args)).1 = .called (h.session.perform (f.call h.globals? args)).1 := by
  rw [Holding.act, hf]

end Holding

/-! ### A call -/

/-- **What names stand for in the body of a function** that is called: parameters for arguments,
and all other names for what they stand for in the session. -/
structure Session.Resolves (s : Session) (f : UserFunction) (args : List Float)
    (scope : Environment) : Prop where
  parameter (name : String) (value : Float) :
    (name, value) ∈ f.parameters.zip args → scope.value? name = some value
  value? (name : String) : name ∉ f.parameters → scope.value? name = s.value? name
  function? (name : String) :
    scope.function? name = (s.function? name).map fun f => f.call (some s.globals)

/-- What names stand for as functions is what is called by their names. -/
theorem Session.function?_environment (s : Session) (name : String) :
    s.globals.environment.function? name =
      (s.function? name).map fun f => f.call (some s.globals) := by
  change ((s.globals.functions.find? name).map _).or ((BuiltinFunction.ofName? name).map _) =
    (((s.globals.functions.find? name).map KnownFunction.user).or
      ((BuiltinFunction.ofName? name).map KnownFunction.builtin)).map _
  cases s.globals.functions.find? name with
  | some f => rfl
  | none => cases BuiltinFunction.ofName? name <;> rfl

theorem Session.resolves_bind (s : Session) {f : UserFunction} {args : List Float}
    (hnodup : f.parameters.Nodup) (hargs : args.length = f.parameters.length) :
    s.Resolves f args (s.globals.environment.bind (.ofList (f.parameters.zip args))) := by
  refine ⟨fun name value hmem => ?_, fun name hname => ?_, s.function?_environment⟩
  · change ((Bindings.ofList _).find? name).or _ = _
    rw [Bindings.find?_ofList_zip_of_mem hnodup hargs hmem, Option.some_or]
  · change ((Bindings.ofList _).find? name).or (s.globals.environment.value? name) = _
    rw [(Bindings.find?_ofList_zip_eq_none_iff hargs).mpr hname, Option.none_or]
    rfl

namespace UserFunction

variable {f : UserFunction} {args : List Float}

/-- A call with a wrong number of arguments is refused for that reason before all others. -/
theorem call_of_length_ne (g : Option Globals) (h : args.length ≠ f.parameters.length) :
    f.call g args = refuse (.arity f.name f.parameters.length args.length) := by
  cases g with
  | none => exact if_neg h
  | some g => rw [call_eq_callBy, callBy, checked, if_neg h]

/-- Without definitions the call is refused. -/
theorem call_none (h : args.length = f.parameters.length) :
    f.call none args = refuse (.outOfScope f.name) := if_pos h

/-- While no call is in progress, the body is evaluated. -/
theorem call_apply (g : Globals) (h : args.length = f.parameters.length) {m : Machine}
    (hm : m.callDepth = 0) :
    f.call (some g) args m = f.evaluateBody g.environment args m := by
  have hfew : ¬ maxCallDepth ≤ m.callDepth := by
    rw [hm]
    decide
  rw [call_eq_callBy, callBy, checked, if_pos h, if_neg hfew]
  rfl

end UserFunction

namespace Holding

/-- **A function that was taken** out of a session keeps its parameters and its body, whatever
happens later.  While the session is there, the body is evaluated with the parameters standing for
the arguments and all other names for what they now stand for.  When it is over, the call is
refused.  A call with a wrong number of arguments is refused in any case. -/
theorem call_taken (strategy : Strategy) (settings : Settings) (threshold : Threshold)
    (before later : List Action) (name : String) {f : UserFunction} (args : List Float)
    (hlive : .drop ∉ before)
    (hf : ((start strategy settings threshold).after before).session.globals.functions.find? name =
      some f) :
    let i := ((start strategy settings threshold).after before).taken.length
    let h := (start strategy settings threshold).after (before ++ .take name :: later)
    h.taken[i]? = some (.user f) ∧ f.name = name ∧
    (args.length ≠ f.parameters.length →
      (h.act (.call i args)).1 =
        .called (.error (.fault (.arity name f.parameters.length args.length)))) ∧
    (args.length = f.parameters.length → .drop ∈ later →
      (h.act (.call i args)).1 = .called (.error (.fault (.outOfScope name)))) ∧
    (args.length = f.parameters.length → .drop ∉ later →
      ∃ scope, h.session.Resolves f args scope ∧
        (h.act (.call i args)).1 = .called
          ((h.session.perform (Run.inCall (f.body.evaluate scope))).1.mapError .runtime)) := by
  intro i h
  obtain ⟨source, hsource⟩ :
      ∃ source, (start strategy settings threshold).after before = source := ⟨_, rfl⟩
  have hi : i = source.taken.length := by rw [← hsource]
  rw [hsource] at hf
  have hsourceLive : source.isOver = false := by
    rw [← hsource, Bool.eq_false_iff, ne_eq, isOver_after_iff]
    exact not_or.mpr ⟨Bool.false_ne_true, hlive⟩
  have hafter : h = source.after (.take name :: later) := by
    rw [← hsource, ← after_append]
  -- the function as it was when it was taken
  obtain ⟨s, hs, halike⟩ : source.Sound := hsource ▸ sound_after _ _ _ before
  rw [halike.globals] at hf
  have hname : f.name = name := hs.namesFunctions name f hf
  have hnodup : f.parameters.Nodup := (hs.comesFrom hf).nodup
  have hfunction : source.session.function? name = some (.user f) := by
    rw [Session.function?, halike.globals, hf]
    rfl
  have htaken : h.taken[i]? = some (.user f) := by
    rw [hafter, hi]
    exact getElem?_taken hsourceLive hfunction later
  -- the session as it is when it is called
  obtain ⟨now, -, hnow⟩ : h.Sound := sound_after _ _ _ _
  have hover : h.isOver = true ↔ .drop ∈ later := by
    simp [hafter, isOver_after_iff, hsourceLive]
  refine ⟨htaken, hname, fun hargs => ?_, fun hargs hdrop => ?_, fun hargs hdrop => ?_⟩
  · rw [act_call htaken, KnownFunction.call, UserFunction.call_of_length_ne _ hargs, hname]
    rfl
  · rw [act_call htaken, KnownFunction.call, globals?, if_pos (hover.mpr hdrop),
      UserFunction.call_none hargs, hname]
    rfl
  · refine ⟨_, h.session.resolves_bind hnodup hargs, ?_⟩
    have hglobals : h.globals? = some h.session.globals := by
      rw [globals?, if_neg (mt hover.mp hdrop)]
    have hcall := f.call_apply h.session.globals hargs hnow.atRest.callDepth
    rw [act_call htaken, KnownFunction.call, hglobals]
    exact congrArg (fun r => Reply.called r.1) hcall

/-- A function that calls itself by a name that is defined anew before the call. -/
theorem call_taken_anew :
    let before : List Action := [.ask (.execute "f(x) = y + f(x)")]
    let later : List Action := [.ask (.execute "f(x) = 10 * x"), .ask (.execute "y = 2")]
    let source := (start .stackMachine ⟨1, 0⟩ .standard).after before
    let h := (start .stackMachine ⟨1, 0⟩ .standard).after (before ++ .take "f" :: later)
    let h' := (start .stackMachine ⟨1, 0⟩ .standard).after
      (before ++ .take "f" :: (later ++ [.ask .clear, .drop]))
    ∃ f, .drop ∉ before ∧ source.session.globals.functions.find? "f" = some f ∧
      (h.act (.call 0 [3.0])).1 = .called (.ok 32.0) ∧
      (h'.act (.call 0 [3.0])).1 = .called (.error (.fault (.outOfScope "f"))) ∧
      (h'.act (.call 0 [])).1 = .called (.error (.fault (.arity "f" 1 0))) := by
  intro before later source h h'
  have hlive : .drop ∉ before := by simp [before]
  obtain ⟨f, hf⟩ : ∃ f, source.session.globals.functions.find? "f" = some f := by
    refine Option.isSome_iff_exists.mp ?_
    subst source before
    decide +kernel
  have hone : f.parameters.length = 1 := by
    have h : (source.session.globals.functions.find? "f").map (·.parameters.length) = some 1 := by
      subst source before
      decide +kernel
    rw [hf] at h
    exact Option.some.inj h
  obtain ⟨htaken, -⟩ := call_taken .stackMachine ⟨1, 0⟩ .standard before later "f" [3.0] hlive hf
  obtain ⟨-, -, -, hdropped, -⟩ := call_taken .stackMachine ⟨1, 0⟩ .standard before
    (later ++ [.ask .clear, .drop]) "f" [3.0] hlive hf
  obtain ⟨-, -, hnone, -⟩ := call_taken .stackMachine ⟨1, 0⟩ .standard before
    (later ++ [.ask .clear, .drop]) "f" [] hlive hf
  refine ⟨f, hlive, hf, ?_, hdropped hone.symm (by simp), ?_⟩
  · have hvalue : h.taken[0]?.map (fun f => (h.session.perform (f.call h.globals? [3.0])).1) =
        some (.ok 32.0) := by
      subst h later before
      decide +kernel
    have htaken' : h.taken[0]? = some (.user f) := htaken
    rw [htaken'] at hvalue
    rw [act_call htaken']
    exact congrArg Reply.called (Option.some.inj hvalue)
  · rw [hone] at hnone
    exact hnone (by simp)

end Holding

end Abacus
