import Abacus.EnvFile
import Abacus.Proofs.Session.Independence
import Abacus.Proofs.Text.Lines
import Mathlib.Data.Finset.Card
import Mathlib.Data.Finset.SDiff
import Mathlib.Data.List.Induction

/-!
# What a file of variables sets

A file is taken line by line, and each line looks at the variables that the lines before it have
left.  So of several lines for one name the first counts where variables keep their values, and the
last counts where the file overrides them.  The number that is answered is that of the names that
are new in the one case, and that of the lines that set something in the other.

## Main definitions

* `EnvFile.valueFor?`: the value that a line has for a name
* `EnvFile.firstValue?`, `EnvFile.lastValue?`: the value that the first line and the last one have
* `EnvFile.namesIn`: the names that lines set

## Main results

* `EnvFile.find?_afterLines_keeping`, `EnvFile.find?_afterLines_overriding`: the values after lines
* `EnvFile.fst_afterLines_keeping`, `EnvFile.fst_afterLines_overriding`: the number that is answered
* `EnvFile.loadFile_settles`: a file
-/

namespace Abacus.EnvFile

/-! ### What lines have for a name -/

/-- **The value that a line has for a name**, if it sets that name. -/
def valueFor? (name line : String) : Option String :=
  match readLine? line with
  | some entry => if entry.1 = name then some entry.2 else none
  | none => none

/-- The value in the first of the lines that set a name. -/
def firstValue? (lines : List String) (name : String) : Option String :=
  lines.findSome? (valueFor? name)

/-- The value in the last of the lines that set a name. -/
def lastValue? (lines : List String) (name : String) : Option String :=
  lines.reverse.findSome? (valueFor? name)

/-- The names that lines set. -/
def namesIn (lines : List String) : List String := (lines.filterMap readLine?).map (·.1)

/-- The variables after some lines, and how many times one was set. -/
def afterLines (override : Bool) (lines : List String) (vars : Variables) : Nat × Variables :=
  (lines.filterMap readLine?).foldl (assign override) (0, vars)

variable {lines : List String} {line name : String} {entry : String × String} {vars : Variables}
  {override : Bool}

theorem valueFor?_of_none (h : readLine? line = none) : valueFor? name line = none := by
  rw [valueFor?, h]

theorem valueFor?_of_some (h : readLine? line = some entry) :
    valueFor? name line = if entry.1 = name then some entry.2 else none := by
  rw [valueFor?, h]

theorem firstValue?_snoc :
    firstValue? (lines ++ [line]) name = (firstValue? lines name).or (valueFor? name line) := by
  rw [firstValue?, List.findSome?_append]
  simp [firstValue?]

theorem lastValue?_snoc :
    lastValue? (lines ++ [line]) name = (valueFor? name line).or (lastValue? lines name) := by
  rw [lastValue?, List.reverse_append, List.findSome?_append]
  simp [lastValue?]

/-- A name has a value in the first of the lines for it just when there is one. -/
theorem firstValue?_eq_none_iff : firstValue? lines name = none ↔ name ∉ namesIn lines := by
  induction lines using List.reverseRecOn with
  | nil => simp [firstValue?, namesIn]
  | append_singleton lines line ih =>
    rw [firstValue?_snoc, Option.or_eq_none_iff, ih]
    cases h : readLine? line with
    | none => simp [valueFor?_of_none h, namesIn, h]
    | some entry => simp [valueFor?_of_some h, namesIn, h, eq_comm]

/-! ### One line more -/

theorem afterLines_snoc_of_none (h : readLine? line = none) :
    afterLines override (lines ++ [line]) vars = afterLines override lines vars := by
  simp [afterLines, h]

theorem afterLines_snoc_of_some (h : readLine? line = some entry) :
    afterLines override (lines ++ [line]) vars =
      assign override (afterLines override lines vars) entry := by
  simp [afterLines, h]

/-- A line that is to override sets its name whatever was set. -/
theorem assign_overriding (state : Nat × Variables) (entry : String × String) :
    assign true state entry = (state.1 + 1, state.2.insert entry.1 entry.2) := rfl

/-- A line that is not sets its name only if it is new. -/
theorem assign_keeping (state : Nat × Variables) (entry : String × String) :
    assign false state entry =
      if (state.2.find? entry.1).isSome then state
      else (state.1 + 1, state.2.insert entry.1 entry.2) := by
  unfold assign Bindings.contains
  cases (state.2.find? entry.1).isSome <;> rfl

/-! ### Any lines -/

/-- **Values are kept**: what was set stays, and of the lines for another name the first counts. -/
theorem find?_afterLines_keeping (lines : List String) (vars : Variables) (name : String) :
    (afterLines false lines vars).2.find? name =
      (vars.find? name).or (firstValue? lines name) := by
  induction lines using List.reverseRecOn with
  | nil => simp [afterLines, firstValue?]
  | append_singleton lines line ih =>
    rw [firstValue?_snoc, ← Option.or_assoc, ← ih]
    cases h : readLine? line with
    | none => rw [afterLines_snoc_of_none h, valueFor?_of_none h, Option.or_none]
    | some entry =>
      rw [afterLines_snoc_of_some h, assign_keeping, valueFor?_of_some h]
      by_cases hset : ((afterLines false lines vars).2.find? entry.1).isSome
      · rw [if_pos hset]
        -- the line is passed over, and for its own name there is a value already
        by_cases hname : entry.1 = name
        · obtain ⟨value, hvalue⟩ := Option.isSome_iff_exists.mp hset
          rw [← hname, hvalue, Option.some_or]
        · rw [if_neg hname, Option.or_none]
      · rw [if_neg hset, Bindings.find?_insert]
        by_cases hname : entry.1 = name
        · rw [← hname, if_pos rfl, if_pos rfl, Option.not_isSome_iff_eq_none.mp hset,
            Option.none_or]
        · rw [if_neg hname, if_neg (Ne.symm hname), Option.or_none]

/-- **Values are overridden**: of the lines for a name the last counts. -/
theorem find?_afterLines_overriding (lines : List String) (vars : Variables) (name : String) :
    (afterLines true lines vars).2.find? name =
      (lastValue? lines name).or (vars.find? name) := by
  induction lines using List.reverseRecOn with
  | nil => simp [afterLines, lastValue?]
  | append_singleton lines line ih =>
    rw [lastValue?_snoc, Option.or_assoc, ← ih]
    cases h : readLine? line with
    | none => rw [afterLines_snoc_of_none h, valueFor?_of_none h, Option.none_or]
    | some entry =>
      rw [afterLines_snoc_of_some h, assign_overriding, valueFor?_of_some h,
        Bindings.find?_insert]
      by_cases hname : entry.1 = name
      · rw [if_pos hname, if_pos hname.symm, Option.some_or]
      · rw [if_neg hname, if_neg (Ne.symm hname), Option.none_or]

/-- The names of the lines that are set while values are kept. -/
theorem find?_afterLines_keeping_isSome :
    ((afterLines false lines vars).2.find? name).isSome ↔
      name ∈ vars.names ∨ name ∈ namesIn lines := by
  rw [find?_afterLines_keeping, Option.isSome_or, Bool.or_eq_true, Bindings.mem_names_iff,
    ← Option.isSome_iff_exists]
  refine or_congr_right ?_
  rw [← not_iff_not, Option.not_isSome_iff_eq_none, firstValue?_eq_none_iff]

/-- **While values are kept, each new name counts once.** -/
theorem fst_afterLines_keeping (lines : List String) (vars : Variables) :
    (afterLines false lines vars).1 =
      ((namesIn lines).toFinset \ vars.names.toFinset).card := by
  induction lines using List.reverseRecOn with
  | nil => simp [afterLines, namesIn]
  | append_singleton lines line ih =>
    cases h : readLine? line with
    | none =>
      have hnames : namesIn (lines ++ [line]) = namesIn lines := by simp [namesIn, h]
      rw [afterLines_snoc_of_none h, ih, hnames]
    | some entry =>
      have hnames : (namesIn (lines ++ [line])).toFinset =
          insert entry.1 (namesIn lines).toFinset := by
        ext other
        simp [namesIn, h]
      rw [afterLines_snoc_of_some h, assign_keeping, hnames]
      by_cases hset : ((afterLines false lines vars).2.find? entry.1).isSome
      · rw [if_pos hset, ih]
        rcases find?_afterLines_keeping_isSome.mp hset with hold | hearlier
        · rw [Finset.insert_sdiff_of_mem _ (List.mem_toFinset.mpr hold)]
        · rw [Finset.insert_eq_of_mem (List.mem_toFinset.mpr hearlier)]
      · rw [if_neg hset]
        obtain ⟨hnew, hfirst⟩ := not_or.mp (mt find?_afterLines_keeping_isSome.mpr hset)
        rw [Finset.insert_sdiff_of_notMem _ (mt List.mem_toFinset.mp hnew),
          Finset.card_insert_of_notMem, ← ih]
        exact fun hmem => hfirst (List.mem_toFinset.mp (Finset.mem_sdiff.mp hmem).1)

/-- **While they are overridden, each line counts that sets something.** -/
theorem fst_afterLines_overriding (lines : List String) (vars : Variables) :
    (afterLines true lines vars).1 = lines.countP fun line => (readLine? line).isSome := by
  induction lines using List.reverseRecOn with
  | nil => rfl
  | append_singleton lines line ih =>
    rw [List.countP_append, ← ih]
    cases h : readLine? line with
    | none => simp [afterLines_snoc_of_none h, h]
    | some entry => simp [afterLines_snoc_of_some h, assign_overriding, h]

/-! ### Characters that no variable has -/

theorem mem_of_mem_unquote {cs : List Char} {c : Char} (h : c ∈ unquote cs) : c ∈ cs :=
  Text.strip_infix.subset (Text.strip_infix.subset (Text.strip_infix.subset h))

/-- The characters of a name and of its value are characters of the line. -/
theorem mem_of_readLine? (h : readLine? line = some entry) {c : Char}
    (hc : c ∈ entry.1.toList ∨ c ∈ entry.2.toList) : c ∈ line.toList := by
  obtain ⟨name, value, -, hcut, -, rfl⟩ := readLine?_eq_some_iff.mp h
  obtain ⟨happend, -⟩ := Text.append_of_cutAt? hcut
  simp only [String.toList_ofList] at hc
  have hparts : c ∈ name ∨ c ∈ value :=
    hc.imp (fun hc => Text.strip_infix.subset hc) mem_of_mem_unquote
  have hinfix : Text.strip Text.isBlank line.toList <:+: line.toList := Text.strip_infix
  refine hinfix.subset ?_
  rw [happend, List.mem_append, List.mem_cons]
  exact hparts.imp id .inr

/-- **A text without the character that no variable has** sets none with it. -/
theorem refuses_of_not_mem {content : String} (h : '\x00' ∉ content.toList) (override : Bool)
    (vars : Variables) : refuses override vars (assignments content) = false := by
  have hnone : ∀ entry ∈ assignments content, hasNul entry = false := by
    intro entry hentry
    obtain ⟨line, hline, hread⟩ := List.mem_filterMap.mp hentry
    obtain ⟨cs, hcs, rfl⟩ := List.mem_map.mp hline
    rw [hasNul, Bool.or_eq_false_iff]
    have hsafe (hc : '\x00' ∈ entry.1.toList ∨ '\x00' ∈ entry.2.toList) : False := by
      have hmem := mem_of_readLine? hread hc
      rw [String.toList_ofList] at hmem
      exact h (Text.mem_of_mem_breakLines hcs hmem)
    constructor
    · simpa using fun hc => hsafe (.inl hc)
    · simpa using fun hc => hsafe (.inr hc)
  generalize assignments content = entries at hnone
  induction entries generalizing vars with
  | nil => rfl
  | cons entry rest ih =>
    rw [refuses, hnone entry List.mem_cons_self, Bool.and_false, Bool.false_or]
    exact ih _ fun other hother => hnone other (List.mem_cons_of_mem entry hother)

/-! ### A file -/

/-- **What a file sets.**  One that is no text, or that can not be read, sets nothing.  Of a text
without the character NUL every line is taken.  Unless the file is to override them, variables that
are set keep their values, each other name has the value of the first line for it, and each such
name counts once.  Else each name has the value of the last line for it, and each line counts that
sets one.  No line for a name, no change of it. -/
theorem loadFile_settles (file : Option ByteArray) (vars : Variables) :
    (file.bind String.fromUTF8? = none → ∀ override, loadFile override file vars = (0, vars)) ∧
    ∀ content, file.bind String.fromUTF8? = some content → '\x00' ∉ content.toList →
      let lines := Text.lines content
      (∀ override, isRefused override file vars = false) ∧
      (∀ name, (loadFile false file vars).2.find? name =
        (vars.find? name).or (firstValue? lines name)) ∧
      (loadFile false file vars).1 =
        ((namesIn lines).toFinset \ vars.names.toFinset).card ∧
      (∀ name, (loadFile true file vars).2.find? name =
        (lastValue? lines name).or (vars.find? name)) ∧
      (loadFile true file vars).1 = lines.countP (fun line => (readLine? line).isSome) ∧
      ∀ override name, (∀ line ∈ lines, valueFor? name line = none) →
        (loadFile override file vars).2.find? name = vars.find? name := by
  refine ⟨fun hnone override => ?_, fun content hcontent hnul => ?_⟩
  · rw [loadFile, contentOf, hnone]
    rfl
  · intro lines
    have htext : contentOf file = content := by rw [contentOf, hcontent, Option.getD_some]
    have hload (override : Bool) :
        loadFile override file vars = afterLines override lines vars := by
      rw [loadFile, htext]
      rfl
    simp only [hload]
    refine ⟨fun override => ?_, find?_afterLines_keeping lines vars,
      fst_afterLines_keeping lines vars, find?_afterLines_overriding lines vars,
      fst_afterLines_overriding lines vars, fun override name hnone => ?_⟩
    · rw [isRefused, htext]
      exact refuses_of_not_mem hnul override vars
    · cases override with
      | false =>
        rw [find?_afterLines_keeping, firstValue?, List.findSome?_eq_none_iff.mpr hnone,
          Option.or_none]
      | true =>
        have hreverse : ∀ line ∈ lines.reverse, valueFor? name line = none :=
          fun line hline => hnone line (List.mem_reverse.mp hline)
        rw [find?_afterLines_overriding, lastValue?, List.findSome?_eq_none_iff.mpr hreverse,
          Option.none_or]

/-- A file with two lines for `A`, one for a variable that is set, a remark, an empty line and one
without a name. -/
theorem loadFile_settles_twice :
    let content := "# colours\nA = \"1\"\n\n=5\nA=2=3\nB='4'"
    let vars : Variables := Bindings.ofList [("B", "9")]
    String.fromUTF8? content.toUTF8 = some content ∧ '\x00' ∉ content.toList ∧
    (loadFile false (some content.toUTF8) vars).2.find? "A" = some "1" ∧
    (loadFile false (some content.toUTF8) vars).2.find? "B" = some "9" ∧
    (loadFile false (some content.toUTF8) vars).1 = 1 ∧
    (loadFile true (some content.toUTF8) vars).2.find? "A" = some "2=3" ∧
    (loadFile true (some content.toUTF8) vars).2.find? "B" = some "4" ∧
    (loadFile true (some content.toUTF8) vars).1 = 3 := by
  intro content vars
  have hread : String.fromUTF8? content.toUTF8 = some content := Text.fromUTF8?_toUTF8 content
  have hnul : '\x00' ∉ content.toList := by decide
  obtain ⟨-, hkeeping, hcount, hoverriding, hlines, -⟩ :=
    (loadFile_settles (some content.toUTF8) vars).2 content hread hnul
  refine ⟨hread, hnul, (hkeeping "A").trans ?_, (hkeeping "B").trans ?_, hcount.trans ?_,
    (hoverriding "A").trans ?_, (hoverriding "B").trans ?_, hlines.trans ?_⟩
  · decide
  · decide
  · decide
  · decide
  · decide
  · decide

end Abacus.EnvFile
