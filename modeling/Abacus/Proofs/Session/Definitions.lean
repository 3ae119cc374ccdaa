import Abacus.Proofs.Session.CallChains
import Abacus.Proofs.Session.Simulation
import Mathlib.Data.List.Induction

/-!
# What stands

A definition stands from the line that makes it until another line defines the same anew, or until
everything is cleared.  What a session has defined after any steps is what stands then: each
variable with the value that the right side of its line had when the line was taken, and each
function with the parameters and the body of its line.  Variables do not get in the way of functions
of the same name, and lines that fail do not count.  All other names are those of the built-in
ones.

What a line means is told by how its two sides are read and by the value that the session finds for
the right side if it is asked for it, and not by the session's own way of reading definitions.

## Main definitions

* `Session.Means`: what a line defines
* `Session.Stands`: the last of the definitions of a name, if nothing was cleared since
* `Session.Shows`: what is looked up and listed

## Main results

* `Session.AtRest.read_eq_ok_iff`: a line is read as what it means
* `Session.stands_snoc_iff`: one step
* `Session.definitions_stand`: all steps from a new session
-/

namespace Abacus

/-! ### The parts of a line -/

/-- **The names of parameters** are all different, and the arguments are nothing but them. -/
theorem parameterNames_eq_ok_iff {seen names : List String} {arguments : List Expr} :
    parameterNames seen arguments = .ok names ↔
      arguments = names.map .var ∧ names.Nodup ∧ ∀ name ∈ names, name ∉ seen := by
  induction arguments generalizing seen names with
  | nil => cases names <;> simp [parameterNames]
  | cons e rest ih =>
    cases e with
    | var first =>
      rw [parameterNames]
      by_cases hseen : first ∈ seen
      · rw [if_pos (List.contains_iff_mem.mpr hseen)]
        cases names with
        | nil => simp
        | cons name names =>
          simp only [List.map_cons, List.cons.injEq, Expr.var.injEq, reduceCtorEq, false_iff]
          rintro ⟨⟨rfl, -⟩, -, hnew⟩
          exact hnew first List.mem_cons_self hseen
      · rw [if_neg (mt List.contains_iff_mem.mp hseen)]
        cases names with
        | nil => cases parameterNames (first :: seen) rest <;> simp [Except.map]
        | cons name names =>
          have hmap : (parameterNames (first :: seen) rest).map (first :: ·) =
                .ok (name :: names) ↔
              name = first ∧ parameterNames (first :: seen) rest = .ok names := by
            cases parameterNames (first :: seen) rest with
            | error e => simp [Except.map]
            | ok others => simp [Except.map, eq_comm]
          rw [hmap, ih]
          simp only [List.map_cons, List.cons.injEq, Expr.var.injEq, List.nodup_cons,
            List.mem_cons, not_or, forall_eq_or_imp]
          constructor
          · rintro ⟨rfl, rfl, hnodup, hnew⟩
            exact ⟨⟨rfl, rfl⟩, ⟨fun hmem => (hnew name hmem).1 rfl, hnodup⟩, hseen,
              fun other hother => (hnew other hother).2⟩
          · rintro ⟨⟨rfl, rfl⟩, ⟨hfirst, hnodup⟩, -, hnew⟩
            refine ⟨rfl, rfl, hnodup, fun other hother => ⟨?_, hnew other hother⟩⟩
            rintro rfl
            exact hfirst hother
    | _ => cases names <;> simp [parameterNames]

theorem Run.fst_bind_eq_ok_iff {ε α β : Type} {x : Run ε α} {next : α → Run ε β} {m : Machine}
    {value : β} :
    ((x >>= next) m).1 = .ok value ↔
      ∃ first, (x m).1 = .ok first ∧ (next first (x m).2).1 = .ok value := by
  rw [bind_apply]
  rcases x m with ⟨e | first, left⟩ <;> simp

theorem Run.fst_mapError_eq_ok_iff {ε ε' α : Type} {f : ε → ε'} {x : Run ε α} {m : Machine}
    {value : α} : (mapError f x m).1 = .ok value ↔ (x m).1 = .ok value := by
  change (x m).1.mapError f = .ok value ↔ _
  cases (x m).1 <;> simp [Except.mapError]

theorem parse_of_readExpr {text : String} {e : Expr} {m : Machine}
    (h : (readExpr text m).1 = .ok e) : parse text = .ok e := by
  obtain ⟨e', hparse, he⟩ := Run.fst_bind_eq_ok_iff.mp h
  cases he
  exact hparse

namespace Definition

variable {strategy : Strategy} {g : Globals} {name : String} {e : Expr} {m : Machine}
  {d : Definition}

theorem ofTarget_var_eq_ok_iff :
    (ofTarget strategy g (.var name) e m).1 = .ok d ↔
      ∃ value, (calculateExpr strategy g.environment e m).1 = .ok value ∧
        ofVariable name value = d := by
  rw [ofTarget_var, Run.fst_bind_eq_ok_iff]
  refine exists_congr fun value => and_congr_right fun _ => ?_
  exact ⟨Except.ok.inj, congrArg _⟩

theorem ofTarget_call_eq_ok_iff {arguments : List Expr} :
    (ofTarget strategy g (.call name arguments) e m).1 = .ok d ↔
      ∃ parameters, parameterNames [] arguments = .ok parameters ∧
        ∃ formula, Formula.ofExpr? strategy e = .ok formula ∧
          ofFunction ⟨name, parameters, formula⟩ = d := by
  have hanswer (r : Except DefinitionError (List String)) (parameters : List String) :
      ((Run.answer (r.mapError Failure.definition) : Run Failure _) m).1 = .ok parameters ↔
        r = .ok parameters := by
    cases r <;> simp [Run.answer, Except.mapError]
  rw [ofTarget, Run.fst_bind_eq_ok_iff]
  refine exists_congr fun parameters => and_congr (hanswer _ _) ?_
  rw [Run.fst_bind_eq_ok_iff]
  refine exists_congr fun formula => and_congr ?_ ⟨Except.ok.inj, congrArg _⟩
  rw [Run.fst_mapError_eq_ok_iff, Formula.ofExpr_fst]

theorem exists_of_ofTarget_eq_ok {target : Expr}
    (h : (ofTarget strategy g target e m).1 = .ok d) :
    (∃ name, target = .var name) ∨ ∃ name arguments, target = .call name arguments := by
  cases target with
  | var name => exact .inl ⟨name, rfl⟩
  | call name arguments => exact .inr ⟨name, arguments, rfl⟩
  | num _ | group _ | neg _ | trailingNeg _ | binary _ _ _ => cases h

/-- A line that is read has two sides, and both are read. -/
theorem exists_of_read_eq_ok {line : String} (h : (read strategy g line m).1 = .ok d) :
    ∃ target body t e, Text.cutAt? '=' line.toList = some (target, body) ∧ '=' ∉ body ∧
      parse (String.ofList target) = .ok t ∧ parse (String.ofList body) = .ok e := by
  unfold read at h
  cases hcut : Text.cutAt? '=' line.toList with
  | none =>
    rw [hcut] at h
    cases h
  | some parts =>
    obtain ⟨target, body⟩ := parts
    rw [hcut] at h
    dsimp only at h
    by_cases hone : '=' ∈ body
    · rw [if_pos (List.contains_iff_mem.mpr hone)] at h
      cases h
    · rw [if_neg (mt List.contains_iff_mem.mp hone), Run.fst_bind_eq_ok_iff] at h
      obtain ⟨t, htarget, h⟩ := h
      obtain ⟨e, hbody, -⟩ := Run.fst_bind_eq_ok_iff.mp h
      rw [Run.fst_mapError_eq_ok_iff] at htarget hbody
      exact ⟨target, body, t, e, rfl, hone, parse_of_readExpr htarget, parse_of_readExpr hbody⟩

end Definition

namespace Session

/-! ### What a line means -/

/-- **What a line defines** in a session.  The line is cut at its only equals sign.  A name on the
left stands for the value that the session has for the right side; a call of different names makes
a function of it. -/
inductive Means (s : Session) (line : String) : Definition → Prop
  | ofVariable {target body : List Char} {name : String} {value : Float} :
    Text.cutAt? '=' line.toList = some (target, body) → '=' ∉ body →
      parse (String.ofList target) = .ok (.var name) →
        (s.evaluate (String.ofList body)).1 = .ok value → Means s line (.ofVariable name value)
  | ofFunction {target body : List Char} {f : UserFunction} {e : Expr} :
    Text.cutAt? '=' line.toList = some (target, body) → '=' ∉ body →
      parse (String.ofList target) = .ok (.call f.name (f.parameters.map .var)) →
        f.parameters.Nodup → parse (String.ofList body) = .ok e →
          Formula.ofExpr? s.strategy e = .ok f.body → Means s line (.ofFunction f)

variable {s : Session} {line : String} {d : Definition}

theorem exists_parse_of_evaluate {text : String} {value : Float}
    (h : (s.evaluate text).1 = .ok value) : ∃ e, parse text = .ok e := by
  change (calculate s.strategy s.globals.environment text s.machine).1 = .ok value at h
  rw [calculate_eq, Run.fst_bind_eq_ok_iff] at h
  obtain ⟨e, hread, -⟩ := h
  exact ⟨e, parse_of_readExpr (Run.fst_mapError_eq_ok_iff.mp hread)⟩

/-- A value does not depend on what has been reported before. -/
theorem AtRest.evaluate_fst (h : s.AtRest) {text : String} {e : Expr} (hparse : parse text = .ok e)
    (before : Event) :
    (s.evaluate text).1 = (calculateExpr s.strategy s.globals.environment e
      ((s.machine.report before).report (.parsed e))).1 := by
  have hreentrant := calculateExpr_reentrant s.strategy s.globals.reentrant_environment e
  change (calculate s.strategy s.globals.environment text s.machine).1 = _
  rw [calculate_apply hparse]
  exact hreentrant.fst_eq rfl h.pool h.pool

/-- **A line is read as what it means.** -/
theorem AtRest.read_eq_ok_iff (h : s.AtRest) :
    (s.perform (Definition.read s.strategy s.globals line)).1 = .ok d ↔ s.Means line d := by
  change (Definition.read s.strategy s.globals line s.machine).1 = .ok d ↔ _
  constructor
  · intro hread
    obtain ⟨target, body, t, e, hcut, hone, htarget, hbody⟩ :=
      Definition.exists_of_read_eq_ok hread
    rw [read_apply hcut (by simpa using hone) htarget hbody] at hread
    rcases Definition.exists_of_ofTarget_eq_ok hread with ⟨name, rfl⟩ | ⟨name, arguments, rfl⟩
    · obtain ⟨value, hvalue, rfl⟩ := Definition.ofTarget_var_eq_ok_iff.mp hread
      exact .ofVariable hcut hone htarget ((h.evaluate_fst hbody _).trans hvalue)
    · obtain ⟨parameters, hparameters, formula, hformula, rfl⟩ :=
        Definition.ofTarget_call_eq_ok_iff.mp hread
      obtain ⟨rfl, hnodup, -⟩ := parameterNames_eq_ok_iff.mp hparameters
      exact .ofFunction hcut hone htarget hnodup hbody hformula
  · intro hmeans
    cases hmeans with
    | ofVariable hcut hone htarget hvalue =>
      obtain ⟨e, hbody⟩ := exists_parse_of_evaluate hvalue
      rw [read_apply hcut (by simpa using hone) htarget hbody,
        Definition.ofTarget_var_eq_ok_iff]
      exact ⟨_, (h.evaluate_fst hbody _).symm.trans hvalue, rfl⟩
    | ofFunction hcut hone htarget hnodup hbody hformula =>
      rw [read_apply hcut (by simpa using hone) htarget hbody,
        Definition.ofTarget_call_eq_ok_iff]
      exact ⟨_, parameterNames_eq_ok_iff.mpr ⟨rfl, hnodup, by simp⟩, _, hformula, rfl⟩

/-- A line does not mean one thing and another. -/
theorem Means.eq (h : s.AtRest) {d' : Definition} (hd : s.Means line d) (hd' : s.Means line d') :
    d = d' := by
  have hread := h.read_eq_ok_iff.mpr hd
  rw [h.read_eq_ok_iff.mpr hd'] at hread
  cases hread
  rfl

theorem Means.isDefinition (h : s.Means line d) : isDefinition line = true := by
  have hmark : ∃ target body, Text.cutAt? '=' line.toList = some (target, body) := by
    cases h with
    | ofVariable hcut | ofFunction hcut => exact ⟨_, _, hcut⟩
  obtain ⟨target, body, hcut⟩ := hmark
  obtain ⟨happend, -⟩ := Text.append_of_cutAt? hcut
  rw [Abacus.isDefinition, happend]
  simp

/-- **A line that means something** defines it. -/
theorem AtRest.execute_of_means (h : s.AtRest) (hmeans : s.Means line d) :
    (s.execute line).1 = .ok (.defined d.signature) ∧
      (s.execute line).2.globals = d.addTo s.globals := by
  have hread := h.read_eq_ok_iff.mpr hmeans
  unfold execute
  rw [if_pos hmeans.isDefinition]
  unfold define
  rcases hperform : s.perform (Definition.read s.strategy s.globals line) with ⟨r, left⟩
  rw [hperform] at hread
  cases hread
  have hleft : left = (s.perform (Definition.read s.strategy s.globals line)).2 := by rw [hperform]
  subst hleft
  exact ⟨rfl, rfl⟩

/-- What a line has defined is what it means. -/
theorem AtRest.exists_means (h : s.AtRest) {signature : String}
    (hdefined : (s.execute line).1 = .ok (.defined signature)) :
    ∃ d, s.Means line d ∧ d.signature = signature := by
  unfold execute at hdefined
  split at hdefined
  · unfold define at hdefined
    rcases hperform : s.perform (Definition.read s.strategy s.globals line) with ⟨e | d, left⟩
    · rw [hperform] at hdefined
      cases hdefined
    · rw [hperform] at hdefined
      cases hdefined
      exact ⟨d, h.read_eq_ok_iff.mp (by rw [hperform]), rfl⟩
  · -- an expression has a value or fails
    change (s.evaluate line).1.map Outcome.value = _ at hdefined
    cases hvalue : (s.evaluate line).1 with
    | error e =>
      rw [hvalue] at hdefined
      cases hdefined
    | ok value =>
      rw [hvalue] at hdefined
      cases hdefined

theorem AtRest.globals_execute_of_no_means (h : s.AtRest) (hnone : ∀ d, ¬ s.Means line d) :
    (s.execute line).2.globals = s.globals := by
  have hundefined : ∀ signature, (s.execute line).1 ≠ .ok (.defined signature) := by
    intro signature hdefined
    obtain ⟨d, hmeans, -⟩ := h.exists_means hdefined
    exact hnone d hmeans
  exact (execute_of_undefined hundefined).2

end Session

/-! ### Definitions one after another -/

namespace Definition

/-- **A definition takes the place of another**: they are of the same variable, or of the same
function. -/
def Replaces : Definition → Definition → Prop
  | ofVariable name _, ofVariable name' _ => name = name'
  | ofFunction f, ofFunction f' => f.name = f'.name
  | ofVariable _ _, ofFunction _ | ofFunction _, ofVariable _ _ => False

end Definition

namespace Globals

/-- What a definition says holds. -/
def Binds (g : Globals) : Definition → Prop
  | .ofVariable name value => g.values.find? name = some value
  | .ofFunction f => g.functions.find? f.name = some f

/-- Functions are found under their own names. -/
def NamesFunctions (g : Globals) : Prop :=
  ∀ name f, g.functions.find? name = some f → f.name = name

variable {g : Globals} {d d' : Definition}

/-- **One definition more** holds, and so do those before that it does not take the place of. -/
theorem binds_addTo_iff : (d.addTo g).Binds d' ↔ d = d' ∨ g.Binds d' ∧ ¬ d.Replaces d' := by
  cases d with
  | ofVariable name value =>
    cases d' with
    | ofVariable name' value' =>
      change (g.values.insert name value).find? name' = some value' ↔ _
      rw [Bindings.find?_insert]
      by_cases hname : name' = name
      · simp [hname, Definition.Replaces]
      · simp [hname, Ne.symm hname, Definition.Replaces, Binds]
    | ofFunction f' => simp [Definition.Replaces, Binds, Definition.addTo]
  | ofFunction f =>
    cases d' with
    | ofVariable name' value' => simp [Definition.Replaces, Binds, Definition.addTo]
    | ofFunction f' =>
      change (g.functions.insert f.name f).find? f'.name = some f' ↔ _
      rw [Bindings.find?_insert]
      by_cases hname : f'.name = f.name
      · simp [hname, Definition.Replaces]
      · have hne : f ≠ f' := fun heq => hname (heq ▸ rfl)
        simp [hname, Ne.symm hname, hne, Definition.Replaces, Binds]

theorem NamesFunctions.addTo (h : g.NamesFunctions) (d : Definition) :
    (d.addTo g).NamesFunctions :=
  Definition.forall_functions_addTo h fun _ _ => rfl

end Globals

/-- The names are those that are bound. -/
theorem Bindings.mem_names_iff {α : Type} {b : Bindings α} {name : String} :
    name ∈ b.names ↔ ∃ value, b.find? name = some value := by
  unfold names find?
  generalize b.entries = entries
  induction entries with
  | nil => simp [lookUp]
  | cons entry rest ih =>
    rw [List.map_cons, List.mem_cons, ih, lookUp]
    by_cases hname : name = entry.1 <;> simp [hname]

namespace Session

variable {s : Session} {steps : List Step} {last : Step} {i : Nat} {d : Definition}

/-! ### What stands -/

/-- The session after some steps. -/
def after (s : Session) (steps : List Step) : Session :=
  steps.foldl (fun s next => (s.step next).2) s

theorem after_snoc : s.after (steps ++ [last]) = ((s.after steps).step last).2 :=
  List.foldl_concat _ s last steps

theorem Reachable.after (hs : s.Reachable) (steps : List Step) : (s.after steps).Reachable := by
  induction steps using List.reverseRecOn with
  | nil => exact hs
  | append_singleton steps last ih =>
    rw [after_snoc]
    cases last with
    | execute line => exact ih.answer (.execute line)
    | clear => exact ih.answer .clear

/-- What a step defines: what its line means. -/
def Makes (s : Session) : Step → Definition → Prop
  | .execute line, d => s.Means line d
  | .clear, _ => False

/-- **The step with an index defines something**, as the session is at the moment. -/
def DefinesAt (s : Session) (steps : List Step) (i : Nat) (d : Definition) : Prop :=
  ∃ next, steps[i]? = some next ∧ (s.after (steps.take i)).Makes next d

/-- **A definition stands** after some steps: it was made in one of them, and since then neither
was it made anew nor everything cleared. -/
def Stands (s : Session) (steps : List Step) (d : Definition) : Prop :=
  ∃ i, s.DefinesAt steps i d ∧
    ∀ j, i < j → steps[j]? ≠ some .clear ∧ ∀ d', s.DefinesAt steps j d' → ¬ d'.Replaces d

theorem DefinesAt.lt_length (h : s.DefinesAt steps i d) : i < steps.length := by
  obtain ⟨next, hnext, -⟩ := h
  exact (List.getElem?_eq_some_iff.mp hnext).1

theorem definesAt_snoc_of_lt (hi : i < steps.length) :
    s.DefinesAt (steps ++ [last]) i d ↔ s.DefinesAt steps i d := by
  rw [DefinesAt, DefinesAt, List.getElem?_append_left hi,
    List.take_append_of_le_length (Nat.le_of_lt hi)]

theorem definesAt_snoc_length :
    s.DefinesAt (steps ++ [last]) steps.length d ↔ (s.after steps).Makes last d := by
  simp [DefinesAt]

/-- **One step more**: what it defines stands, and so does what stood before if it is neither
defined anew nor cleared. -/
theorem stands_snoc_iff :
    s.Stands (steps ++ [last]) d ↔
      (s.after steps).Makes last d ∨
        s.Stands steps d ∧ last ≠ .clear ∧
          ∀ d', (s.after steps).Makes last d' → ¬ d'.Replaces d := by
  constructor
  · rintro ⟨i, hi, hlater⟩
    have hle := hi.lt_length
    rw [List.length_append, List.length_singleton] at hle
    rcases Nat.lt_or_eq_of_le (Nat.le_of_lt_succ hle) with hlt | rfl
    -- made earlier, so that the last step is one of those that leave it alone
    · refine .inr ⟨⟨i, (definesAt_snoc_of_lt hlt).mp hi, fun j hj => ?_⟩, ?_, ?_⟩
      · by_cases hjlt : j < steps.length
        · obtain ⟨hclear, hanew⟩ := hlater j hj
          rw [List.getElem?_append_left hjlt] at hclear
          exact ⟨hclear, fun d' hd' => hanew d' ((definesAt_snoc_of_lt hjlt).mpr hd')⟩
        · rw [List.getElem?_eq_none (Nat.not_lt.mp hjlt)]
          exact ⟨nofun, fun d' hd' => absurd hd'.lt_length hjlt⟩
      · intro hclear
        refine (hlater steps.length hlt).1 ?_
        rw [List.getElem?_concat_length, hclear]
      · intro d' hmakes
        exact (hlater steps.length hlt).2 d' (definesAt_snoc_length.mpr hmakes)
    · exact .inl (definesAt_snoc_length.mp hi)
  · have hnone {j : Nat} (hj : steps.length < j) : ¬ j < (steps ++ [last]).length := by
      rw [List.length_append, List.length_singleton]
      omega
    -- behind the last step there is none that could take its place
    rintro (hmakes | ⟨⟨i, hi, hlater⟩, hclear, hanew⟩)
    · refine ⟨steps.length, definesAt_snoc_length.mpr hmakes, fun j hj => ?_⟩
      rw [List.getElem?_eq_none (Nat.not_lt.mp (hnone hj))]
      exact ⟨nofun, fun d' hd' => absurd hd'.lt_length (hnone hj)⟩
    · refine ⟨i, (definesAt_snoc_of_lt hi.lt_length).mpr hi, fun j hj => ?_⟩
      rcases Nat.lt_trichotomy j steps.length with hlt | rfl | hgt
      · rw [List.getElem?_append_left hlt]
        obtain ⟨hclear', hanew'⟩ := hlater j hj
        exact ⟨hclear', fun d' hd' => hanew' d' ((definesAt_snoc_of_lt hlt).mp hd')⟩
      · rw [List.getElem?_concat_length]
        exact ⟨fun heq => hclear (Option.some.inj heq),
          fun d' hd' => hanew d' (definesAt_snoc_length.mp hd')⟩
      · rw [List.getElem?_eq_none (Nat.not_lt.mp (hnone hgt))]
        exact ⟨nofun, fun d' hd' => absurd hd'.lt_length (hnone hgt)⟩

/-- **What stands is what is defined**, after any steps from where nothing is. -/
theorem binds_after_iff (hs : s.Reachable) (hempty : s.globals = .empty) (steps : List Step) :
    (s.after steps).globals.Binds d ↔ s.Stands steps d := by
  -- Induction on the steps, the last one being the one that is taken last.
  induction steps using List.reverseRecOn generalizing d with
  | nil =>
    change s.globals.Binds d ↔ _
    rw [hempty]
    constructor
    · intro h
      cases d with
      | ofVariable name value => cases h
      | ofFunction f => cases h
    · rintro ⟨i, hi, -⟩
      exact absurd hi.lt_length (Nat.not_lt_zero i)
  | append_singleton steps last ih =>
    have hrest := (hs.after steps).atRest
    rw [after_snoc, stands_snoc_iff, ← ih]
    cases last with
    | execute line =>
      change ((s.after steps).execute line).2.globals.Binds d ↔ _
      by_cases hmeans : ∃ d', (s.after steps).Means line d'
      · obtain ⟨made, hmade⟩ := hmeans
        -- a line means one thing at most, and this is what is added
        have hunique (d' : Definition) : (s.after steps).Means line d' ↔ made = d' := by
          refine ⟨fun hd' => hmade.eq hrest hd', ?_⟩
          rintro rfl
          exact hmade
        rw [(hrest.execute_of_means hmade).2, Globals.binds_addTo_iff]
        simp [Makes, hunique]
      · rw [hrest.globals_execute_of_no_means fun d' hd' => hmeans ⟨d', hd'⟩]
        simp [Makes, not_exists.mp hmeans]
    | clear =>
      have hnone : ¬ Globals.empty.Binds d := by
        intro h
        cases d with
        | ofVariable name value => cases h
        | ofFunction f => cases h
      change Globals.empty.Binds d ↔ _
      simp [Makes, hnone]

theorem Reachable.namesFunctions (hs : s.Reachable) : s.globals.NamesFunctions :=
  hs.globals_of_addTo nofun fun hg _ => hg.addTo _

/-! ### What is shown -/

/-- **What a session shows**: some definitions are looked up and listed, and the built-in names
where there is none. -/
structure Shows (s : Session) (holds : Definition → Prop) : Prop where
  values (name : String) (value : Float) :
    s.globals.values.find? name = some value ↔ holds (.ofVariable name value)
  functions (name : String) (f : UserFunction) :
    s.globals.functions.find? name = some f ↔ f.name = name ∧ holds (.ofFunction f)
  value? (name : String) (value : Float) :
    holds (.ofVariable name value) → s.value? name = some value
  value?_builtin (name : String) :
    (∀ value, ¬ holds (.ofVariable name value)) →
      s.value? name = Environment.builtins.value? name
  function? (f : UserFunction) : holds (.ofFunction f) → s.function? f.name = some (.user f)
  function?_builtin (name : String) :
    (∀ f, f.name = name → ¬ holds (.ofFunction f)) →
      s.function? name = (BuiltinFunction.ofName? name).map .builtin
  mem_variableNames (name : String) :
    name ∈ s.variableNames ↔ ∃ value, holds (.ofVariable name value)
  mem_functionNames (name : String) :
    name ∈ s.functionNames ↔ ∃ f, f.name = name ∧ holds (.ofFunction f)
  sorted_variableNames : s.variableNames.Pairwise (· < ·)
  sorted_functionNames : s.functionNames.Pairwise (· < ·)

/-- A session shows what its definitions say. -/
theorem shows_binds (h : s.globals.NamesFunctions) : s.Shows s.globals.Binds := by
  have hfunctions (name : String) (f : UserFunction) :
      s.globals.functions.find? name = some f ↔
        f.name = name ∧ s.globals.Binds (.ofFunction f) := by
    constructor
    · intro hf
      obtain rfl := h name f hf
      exact ⟨rfl, hf⟩
    · rintro ⟨rfl, hf⟩
      exact hf
  refine
    { values := fun _ _ => Iff.rfl
      functions := hfunctions
      value? := ?_
      value?_builtin := ?_
      function? := ?_
      function?_builtin := ?_
      mem_variableNames := fun name => Bindings.mem_names_iff
      mem_functionNames := fun name => Bindings.mem_names_iff.trans (exists_congr (hfunctions name))
      sorted_variableNames := s.globals.values.sorted_names
      sorted_functionNames := s.globals.functions.sorted_names }
  · intro name value hvalue
    change (s.globals.values.find? name).or _ = _
    rw [show s.globals.values.find? name = some value from hvalue]
    rfl
  · intro name hnone
    change (s.globals.values.find? name).or _ = _
    rw [Option.eq_none_iff_forall_ne_some.mpr hnone]
    rfl
  · intro f hf
    rw [Session.function?, show s.globals.functions.find? f.name = some f from hf]
    rfl
  · intro name hnone
    have hfind : s.globals.functions.find? name = none := by
      refine Option.eq_none_iff_forall_ne_some.mpr fun f hf => ?_
      obtain ⟨hname, hbinds⟩ := (hfunctions name f).mp hf
      exact hnone f hname hbinds
    rw [Session.function?, hfind]
    rfl

/-- **After any steps from a new session**, what it shows are the definitions that stand, over the
built-in names.  A step is answered with a definition just when it defines something. -/
theorem definitions_stand (strategy : Strategy) (settings : Settings) (threshold : Threshold)
    (steps : List Step) :
    let s := new strategy settings threshold
    (∀ i line, steps[i]? = some (.execute line) → ∀ signature,
      ((s.after (steps.take i)).execute line).1 = .ok (.defined signature) ↔
        ∃ d, s.DefinesAt steps i d ∧ d.signature = signature) ∧
    (s.after steps).Shows (s.Stands steps) := by
  intro s
  have hs : s.Reachable := .new strategy settings threshold
  refine ⟨?_, ?_⟩
  · intro i line hline signature
    have hrest := (hs.after (steps.take i)).atRest
    constructor
    · intro hdefined
      obtain ⟨d, hmeans, hsignature⟩ := hrest.exists_means hdefined
      exact ⟨d, ⟨.execute line, hline, hmeans⟩, hsignature⟩
    · rintro ⟨d, ⟨next, hnext, hmakes⟩, rfl⟩
      rw [hline] at hnext
      cases hnext
      exact (hrest.execute_of_means hmakes).1
  · have hholds : (s.after steps).globals.Binds = s.Stands steps :=
      funext fun d => propext (binds_after_iff hs rfl steps)
    rw [← hholds]
    exact shows_binds (hs.after steps).namesFunctions

/-- A definition that is cleared, a variable made from itself, a function of the same name, a
built-in name made anew, a change that comes later, and a line that fails. -/
theorem definitions_stand_self :
    let s := new .stackMachine ⟨1, 0⟩ .standard
    let steps : List Step :=
      [.execute "y = 1", .clear, .execute "x = 2", .execute "x = x * x", .execute "x(a) = a + x",
        .execute "Pi = x", .execute "x = x + 1", .execute "x = 1 / 0"]
    s.Stands steps (.ofVariable "x" 5.0) ∧ s.Stands steps (.ofVariable "Pi" 4.0) ∧
      (∀ value, ¬ s.Stands steps (.ofVariable "y" value)) ∧
      (∃ f, f.name = "x" ∧ s.Stands steps (.ofFunction f)) ∧
      (s.after steps).value? "Pi" = some 4.0 := by
  intro s steps
  obtain ⟨-, hshows⟩ := definitions_stand .stackMachine ⟨1, 0⟩ .standard steps
  have hx : s.Stands steps (.ofVariable "x" 5.0) := (hshows.values "x" 5.0).mp (by decide +kernel)
  have hpi : s.Stands steps (.ofVariable "Pi" 4.0) :=
    (hshows.values "Pi" 4.0).mp (by decide +kernel)
  refine ⟨hx, hpi, ?_, (hshows.mem_functionNames "x").mp (by decide +kernel),
    hshows.value? "Pi" 4.0 hpi⟩
  intro value hy
  have hnone : (s.after steps).globals.values.find? "y" = none := by decide +kernel
  rw [(hshows.values "y" value).mpr hy] at hnone
  cases hnone

end Session

end Abacus
