import Abacus.EnvFile
import Abacus.Proofs.Text.Ends

/-!
# Values in quotes

A value stands between two quotes of one kind so that blanks at its ends belong to it, as do the
number signs and the equals signs that it holds.  Quotes are not looked at in pairs: the double
ones are cut off from the ends of what is behind the equals sign, and then the single ones from the
ends of what is left.  So single quotes protect every value that does not hold one, double quotes at
its ends included.  Double quotes protect a value just when it has no single quote at its ends; else
these are lost.  Nothing else protects such a value, as no line sets one at all.

## Main definitions

* `EnvFile.IsVariableName`: the names that a line can set
* `EnvFile.Margins`: the blanks of a line
* `EnvFile.quotedLine`: a line for a name and a value in quotes

## Main results

* `EnvFile.unquote_between`: what is taken from between two quotes
* `EnvFile.bare_of_readLine?`: the ends of the values that lines set
* `EnvFile.readLine?_quotedLine`: what quotes protect
-/

namespace Abacus.EnvFile

/-! ### Lines with quotes -/

/-- **A name that a line can set**: it is not empty, it neither begins nor ends with a blank, it
holds no equals sign, and it does not begin like a remark. -/
structure IsVariableName (name : String) : Prop where
  ne_empty : name ≠ ""
  bare : Text.Bare Text.isBlank name.toList
  no_equals : '=' ∉ name.toList
  no_remark : name.toList.head? ≠ some '#'

/-- **The blanks of a line**, which are none where nothing is said. -/
structure Margins where
  /-- ahead of the name -/
  ahead : String := ""
  /-- between the name and the equals sign -/
  beforeEquals : String := ""
  /-- between the equals sign and the value -/
  behindEquals : String := ""
  /-- behind the value -/
  behind : String := ""
  isAllBlank_ahead : Text.isAllBlank ahead = true := by decide
  isAllBlank_beforeEquals : Text.isAllBlank beforeEquals = true := by decide
  isAllBlank_behindEquals : Text.isAllBlank behindEquals = true := by decide
  isAllBlank_behind : Text.isAllBlank behind = true := by decide

/-- **A line for a name and a value between two quotes.** -/
def quotedLine (margins : Margins) (name : String) (mark : Char) (value : String) : String :=
  margins.ahead ++ name ++ margins.beforeEquals ++ "=" ++ margins.behindEquals ++
    String.singleton mark ++ value ++ String.singleton mark ++ margins.behind

/-- Quotes are of two kinds. -/
def IsQuote (mark : Char) : Prop := mark = '"' ∨ mark = '\''

variable {name value : String} {mark : Char}

instance : Decidable (IsVariableName name) :=
  decidable_of_iff (name ≠ "" ∧ Text.Bare Text.isBlank name.toList ∧ '=' ∉ name.toList ∧
    name.toList.head? ≠ some '#')
    ⟨fun ⟨hne, hbare, hequals, hremark⟩ => ⟨hne, hbare, hequals, hremark⟩,
      fun h => ⟨h.ne_empty, h.bare, h.no_equals, h.no_remark⟩⟩

instance : Decidable (IsQuote mark) := inferInstanceAs (Decidable (_ ∨ _))

theorem toList_quotedLine (margins : Margins) (name : String) (mark : Char) (value : String) :
    (quotedLine margins name mark value).toList =
      margins.ahead.toList ++
        (name.toList ++ margins.beforeEquals.toList ++
          '=' :: (margins.behindEquals.toList ++ ([mark] ++ value.toList ++ [mark]))) ++
        margins.behind.toList := by
  simp [quotedLine]

theorem IsVariableName.toList_ne_nil (h : IsVariableName name) : name.toList ≠ [] :=
  mt String.toList_eq_nil_iff.mp h.ne_empty

theorem IsQuote.isBlank_eq_false (h : IsQuote mark) : Text.isBlank mark = false := by
  rcases h with rfl | rfl <;> decide

/-! ### Ends of values -/

/-- **What is taken from between two quotes** is the value but for single quotes at its ends. -/
theorem unquote_between (hmark : IsQuote mark) {cs before : List Char} (hcs : mark ∉ cs)
    (hbefore : ∀ c ∈ before, Text.isBlank c = true) :
    unquote (before ++ ([mark] ++ cs ++ [mark])) = Text.strip (· == '\'') cs := by
  have hblank : Text.Bare Text.isBlank ([mark] ++ cs ++ [mark]) :=
    .between hmark.isBlank_eq_false
  rw [unquote, hblank.strip_append_left hbefore]
  rcases hmark with rfl | rfl
  · have hbare : Text.Bare (· == '"') cs := .of_not_mem hcs
    rw [hbare.strip_append (by simp)]
  -- the single quotes hide the ends of the value from the first cut
  · have hbare : Text.Bare (· == '"') (['\''] ++ cs ++ ['\'']) := .between (by decide)
    rw [hbare.strip_eq, Text.strip_append (by simp)]

/-- **No line sets a value with a single quote at an end.** -/
theorem bare_of_readLine? {line : String} {entry : String × String}
    (h : readLine? line = some entry) : Text.Bare (· == '\'') entry.2.toList := by
  obtain ⟨name, value, -, -, -, rfl⟩ := readLine?_eq_some_iff.mp h
  rw [String.toList_ofList]
  exact Text.bare_strip _ _

/-! ### What is read -/

/-- The line begins with its name and ends with a quote, once it is trimmed. -/
theorem strip_quotedLine (margins : Margins) (hname : IsVariableName name) (hmark : IsQuote mark)
    (value : String) :
    Text.strip Text.isBlank (quotedLine margins name mark value).toList =
      name.toList ++ margins.beforeEquals.toList ++
        '=' :: (margins.behindEquals.toList ++ ([mark] ++ value.toList ++ [mark])) := by
  have hends : Text.Bare Text.isBlank (name.toList ++ (margins.beforeEquals.toList ++
      '=' :: (margins.behindEquals.toList ++ [mark] ++ value.toList)) ++ [mark]) :=
    hname.bare.append_concat hname.toList_ne_nil _ hmark.isBlank_eq_false
  rw [toList_quotedLine]
  refine Text.Bare.strip_append (by simpa using hends) ?_
  exact List.forall_mem_append.mpr
    ⟨List.all_eq_true.mp margins.isAllBlank_ahead, List.all_eq_true.mp margins.isAllBlank_behind⟩

/-- The equals sign behind the name is the first one. -/
theorem equals_not_mem_front (margins : Margins) (hname : IsVariableName name) :
    '=' ∉ name.toList ++ margins.beforeEquals.toList := by
  refine fun hmem => (List.mem_append.mp hmem).elim hname.no_equals fun hblank => ?_
  exact absurd (List.all_eq_true.mp margins.isAllBlank_beforeEquals '=' hblank) (by decide)

/-- **A line with quotes sets its name to what is taken from between them.** -/
theorem readLine?_quotedLine_eq (margins : Margins) (hname : IsVariableName name)
    (hmark : IsQuote mark) (hvalue : mark ∉ value.toList) :
    readLine? (quotedLine margins name mark value) =
      some (name, String.ofList (Text.strip (· == '\'') value.toList)) := by
  have hline := strip_quotedLine margins hname hmark value
  have hcut := Text.cutAt?_append (equals_not_mem_front margins hname)
    (margins.behindEquals.toList ++ ([mark] ++ value.toList ++ [mark]))
  have hbefore : Text.strip Text.isBlank (name.toList ++ margins.beforeEquals.toList) =
      name.toList :=
    hname.bare.strip_append_right (List.all_eq_true.mp margins.isAllBlank_beforeEquals)
  have hbehind := unquote_between hmark hvalue (List.all_eq_true.mp margins.isAllBlank_behindEquals)
  refine readLine?_eq_some_iff.mpr ⟨_, _, ?_, hline ▸ hcut, ?_, ?_⟩
  · rw [hline, List.append_assoc, List.head?_append_of_ne_nil _ hname.toList_ne_nil]
    exact hname.no_remark
  · rw [hbefore]
    exact hname.toList_ne_nil
  · rw [hbefore, hbehind, String.ofList_toList]

/-- **What quotes protect.**  Between single quotes a value is read as it is.  Between double quotes
it is so just when it neither begins nor ends with a single quote.  Nothing but single quotes at its
ends is lost, and where some are there is no other line that sets the value. -/
theorem readLine?_quotedLine (margins : Margins) (hname : IsVariableName name)
    (hmark : IsQuote mark) (hvalue : mark ∉ value.toList) :
    (mark = '\'' → readLine? (quotedLine margins name mark value) = some (name, value)) ∧
    (readLine? (quotedLine margins name mark value) = some (name, value) ↔
      Text.Bare (· == '\'') value.toList) ∧
    (∃ before kept behind, value = before ++ kept ++ behind ∧
      (∀ c ∈ before.toList ++ behind.toList, c = '\'') ∧
      readLine? (quotedLine margins name mark value) = some (name, kept)) ∧
    (¬ Text.Bare (· == '\'') value.toList → ∀ line, readLine? line ≠ some (name, value)) := by
  have hread := readLine?_quotedLine_eq margins hname hmark hvalue
  have hprotected (hbare : Text.Bare (· == '\'') value.toList) :
      readLine? (quotedLine margins name mark value) = some (name, value) := by
    rw [hread, hbare.strip_eq, String.ofList_toList]
  refine ⟨?_, ⟨bare_of_readLine?, hprotected⟩, ?_, fun hlost line hline =>
    hlost (bare_of_readLine? hline)⟩
  · rintro rfl
    exact hprotected (.of_not_mem hvalue)
  · obtain ⟨before, behind, hends, hquotes⟩ :=
      Text.exists_append_strip_append (· == '\'') value.toList
    refine ⟨String.ofList before, _, String.ofList behind, ?_, ?_, hread⟩
    · rw [← String.ofList_append, ← String.ofList_append, ← hends, String.ofList_toList]
    · simpa using hquotes

/-- Blanks, number signs, equals signs and quotes of the other kind, between quotes of either
kind. -/
theorem readLine?_quotedLine_both :
    let margins : Margins :=
      { ahead := " ", beforeEquals := "\t", behindEquals := "  ", behind := "\r" }
    IsVariableName "TITLE" ∧ '"' ∉ " #1 = 'one' ".toList ∧ '\'' ∉ "\"#1\" = \"".toList ∧
    quotedLine margins "TITLE" '"' " #1 = 'one' " = " TITLE\t=  \" #1 = 'one' \"\r" ∧
    readLine? (quotedLine margins "TITLE" '"' " #1 = 'one' ") = some ("TITLE", " #1 = 'one' ") ∧
    quotedLine {} "TITLE" '\'' "\"#1\" = \"" = "TITLE='\"#1\" = \"'" ∧
    readLine? (quotedLine {} "TITLE" '\'' "\"#1\" = \"") = some ("TITLE", "\"#1\" = \"") := by
  intro margins
  have hname : IsVariableName "TITLE" := by decide
  have hdouble : '"' ∉ " #1 = 'one' ".toList := by decide
  have hsingle : '\'' ∉ "\"#1\" = \"".toList := by decide
  refine ⟨hname, hdouble, hsingle, by decide, ?_, by decide, ?_⟩
  · exact (readLine?_quotedLine margins hname (.inl rfl) hdouble).2.1.mpr (by decide)
  · exact (readLine?_quotedLine {} hname (.inr rfl) hsingle).1 rfl

/-- **A single quote that is lost** from the front of a value between double quotes. -/
theorem readLine?_quotedLine_lost :
    IsVariableName "K" ∧ IsQuote '"' ∧ '"' ∉ "'tis so".toList ∧
    quotedLine {} "K" '"' "'tis so" = "K=\"'tis so\"" ∧
    readLine? (quotedLine {} "K" '"' "'tis so") = some ("K", "tis so") ∧
    readLine? (quotedLine {} "K" '"' "'tis so") ≠ some ("K", "'tis so") := by
  decide

end Abacus.EnvFile
