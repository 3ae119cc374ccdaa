import Abacus.Proofs.Session.Independence

/-!
# Where functions come from

A function of a session comes from a line that defined it: it is found under its own name, its
parameters are all different, and its body is an expression that was made ready for evaluation in
the way of the session.  When it is called, each of its parameters stands for one argument.

## Main results

* `Bindings.find?_ofList_zip_of_mem`: names that are all different, put beside values
* `Session.Reachable.comesFrom`: a function of a session
-/

namespace Abacus

/-! ### Bindings of different names -/

namespace Bindings

variable {α : Type}

theorem find?_ofList_of_mem {entries : List (String × α)} (hnodup : (entries.map (·.1)).Nodup)
    {name : String} {value : α} (h : (name, value) ∈ entries) :
    (ofList entries).find? name = some value := by
  induction entries using List.reverseRecOn with
  | nil => cases h
  | append_singleton entries last ih =>
    rw [List.map_append, List.map_singleton, List.nodup_append] at hnodup
    obtain ⟨hnodup, -, hdisjoint⟩ := hnodup
    rw [ofList_snoc, find?_insert]
    rcases List.mem_append.mp h with h | h
    -- the name is bound before, and the last one is another
    · have hne : name ≠ last.1 :=
        hdisjoint name (List.mem_map_of_mem h) last.1 (List.mem_singleton_self _)
      rw [if_neg hne, ih hnodup h]
    · obtain rfl := List.mem_singleton.mp h
      rw [if_pos rfl]

variable {names : List String} {values : List α}

/-- **Names that are all different stand for the values** that they are put beside. -/
theorem find?_ofList_zip_of_mem (hnodup : names.Nodup) (hlength : values.length = names.length)
    {name : String} {value : α} (h : (name, value) ∈ names.zip values) :
    (ofList (names.zip values)).find? name = some value := by
  refine find?_ofList_of_mem ?_ h
  rwa [List.map_fst_zip (Nat.le_of_eq hlength.symm)]

theorem find?_ofList_zip_eq_none_iff (hlength : values.length = names.length) {name : String} :
    (ofList (names.zip values)).find? name = none ↔ name ∉ names := by
  have hbound : name ∈ names ↔ ∃ value, (ofList (names.zip values)).find? name = some value := by
    rw [← mem_names_iff, mem_names_ofList_iff, List.map_fst_zip (Nat.le_of_eq hlength.symm)]
  rw [hbound, Option.eq_none_iff_forall_ne_some, not_exists]

end Bindings

/-! ### A function of a session -/

/-- **A function that comes from a line**: its parameters are all different, and its body is an
expression made ready for evaluation. -/
structure UserFunction.ComesFrom (strategy : Strategy) (f : UserFunction) : Prop where
  nodup : f.parameters.Nodup
  body : ∃ e, Formula.ofExpr? strategy e = .ok f.body

namespace Definition

variable {strategy : Strategy} {g : Globals} {m m' : Machine} {f : UserFunction}

theorem comesFrom_of_read {line : String}
    (h : read strategy g line m = (.ok (.ofFunction f), m')) : f.ComesFrom strategy := by
  have hread : (read strategy g line m).1 = .ok (.ofFunction f) := congrArg Prod.fst h
  obtain ⟨target, body, t, e, hcut, hone, htarget, hbody⟩ := exists_of_read_eq_ok hread
  rw [Session.read_apply hcut (by simpa using hone) htarget hbody] at hread
  rcases exists_of_ofTarget_eq_ok hread with ⟨name, rfl⟩ | ⟨name, arguments, rfl⟩
  · obtain ⟨value, -, hdefinition⟩ := ofTarget_var_eq_ok_iff.mp hread
    cases hdefinition
  · obtain ⟨parameters, hparameters, formula, hformula, hdefinition⟩ :=
      ofTarget_call_eq_ok_iff.mp hread
    cases hdefinition
    obtain ⟨-, hnodup, -⟩ := parameterNames_eq_ok_iff.mp hparameters
    exact ⟨hnodup, e, hformula⟩

end Definition

/-- **The functions of a session** come from its lines. -/
theorem Session.Reachable.comesFrom {s : Session} (h : s.Reachable) {name : String}
    {f : UserFunction} (hf : s.globals.functions.find? name = some f) :
    f.ComesFrom s.strategy := by
  let P (strategy : Strategy) (g : Globals) : Prop :=
    ∀ name f, g.functions.find? name = some f → f.ComesFrom strategy
  have hall : P s.strategy s.globals := by
    refine h.of_addTo (P := P) (fun _ => nofun) fun hg hread => ?_
    apply Definition.forall_functions_addTo hg
    rintro f rfl
    exact Definition.comesFrom_of_read hread
  exact hall name f hf

end Abacus
