import Abacus.Proofs.Token.Cutting

/-!
# Blanks between lexemes

How many blanks stand before, between and behind the lexemes of a text, and which ones, makes no
difference to its lexemes.  Two names or two numbers need one blank between them to be kept apart;
a text that has one between any two neighbours is read as the same lexemes whatever they are.

## Main definitions

* `Spread`: characters that are some lexemes, with blanks between them
* `Respaced`: a text made of the lexemes of another

## Main results

* `Lexeme.CutOut.lexemesOf_append`: a lexeme of a text is read again wherever it is set apart
* `lexemes_scan_respaced`: the lexemes of the two texts are the same
-/

namespace Abacus

/-- **The characters are the lexemes in order**, each as it is spelled, with blanks behind it: one
at least if another lexeme follows. -/
inductive Spread : List Lexeme → List Char → Prop
  | nil : Spread [] []
  | cons {l : Lexeme} {ls : List Lexeme} {gap cs : List Char} :
    (∀ c ∈ gap, Text.isBlank c = true) → (ls ≠ [] → gap ≠ []) → Spread ls cs →
    Spread (l :: ls) (l.spelling ++ gap ++ cs)

/-- **The second text is made of the lexemes of the first** in order, with any blanks before,
between and behind them, and at least one between neighbours. -/
def Respaced (s s' : String) : Prop :=
  ∃ front cs, s'.toList = front ++ cs ∧ (∀ c ∈ front, Text.isBlank c = true) ∧
    Spread ((scan s).dropLast.map Token.lexeme) cs

theorem separated_of_isBlank {c : Char} (h : Text.isBlank c = true) (cs : List Char) :
    Separated (c :: cs) := by
  intro x hx
  obtain rfl : c = x := Option.some.inj hx
  refine ⟨?_, ?_, ?_⟩
  · rw [← Bool.not_eq_true]
    intro hname
    rw [isBlank_of_isNameChar hname] at h
    cases h
  · rw [← Bool.not_eq_true]
    intro hdigit
    rw [isBlank_of_isDigit hdigit] at h
    cases h
  · rintro rfl
    cases h

theorem lexemesOf_blanks {blanks : List Char} (h : ∀ c ∈ blanks, Text.isBlank c = true)
    (cs : List Char) : lexemesOf (blanks ++ cs) = lexemesOf cs := by
  induction blanks with
  | nil => rfl
  | cons c blanks ih =>
    rw [List.cons_append, lexemesOf_blank (h c List.mem_cons_self)]
    exact ih fun x hx => h x (List.mem_cons_of_mem c hx)

theorem lexemesOf_unexpected {c : Char} (hsymbol : Symbol.ofChar? c = none)
    (hdigit : c.isDigit = false) (hname : isNameChar c = false) (hblank : Text.isBlank c = false)
    (cs : List Char) : lexemesOf (c :: cs) = .unexpected c :: lexemesOf cs := by
  rw [lexemesOf_cons hblank, Lexeme.readAt, hsymbol]
  simp only [hdigit, hname, Bool.false_eq_true, if_false]

/-- **A lexeme of a text is read again** from its spelling, wherever nothing that comes next could
be a part of it. -/
theorem Lexeme.CutOut.lexemesOf_append {before part after rest : List Char} {l : Lexeme}
    (h : l.CutOut before part after) (hrest : Separated rest) :
    lexemesOf (l.spelling ++ rest) = l :: lexemesOf rest := by
  rw [h.spelling_eq]
  cases h with
  | symbol hpart =>
    rw [hpart, List.singleton_append]
    exact lexemesOf_symbol _ rest
  | number hnumeral _ _ => exact lexemesOf_number hnumeral hrest
  | name hne hname _ _ =>
    obtain ⟨c, cs, rfl⟩ := List.exists_cons_of_ne_nil hne
    exact lexemesOf_name hname hrest
  | unexpected hpart hsymbol hdigit hname hblank =>
    rw [hpart, List.singleton_append]
    exact lexemesOf_unexpected hsymbol hdigit hname hblank rest

/-- Lexemes of a text that are spread out are read again. -/
theorem Spread.lexemesOf_eq {ls : List Lexeme} {cs : List Char} (h : Spread ls cs)
    (hcut : ∀ l ∈ ls, ∃ before part after, l.CutOut before part after) :
    lexemesOf cs = ls ++ [.endOfInput] := by
  induction h with
  | nil => exact lexemesOf_nil
  | @cons l ls gap cs hgap hapart hspread ih =>
    obtain ⟨before, part, after, hl⟩ := hcut l List.mem_cons_self
    have hrest : Separated (gap ++ cs) := by
      cases gap with
      | cons c gap => exact separated_of_isBlank (hgap c List.mem_cons_self) (gap ++ cs)
      -- without a blank this was the last lexeme
      | nil =>
        cases hspread with
        | nil => exact separated_nil
        | cons => exact absurd rfl (hapart nofun)
    rw [List.append_assoc, hl.lexemesOf_append hrest, lexemesOf_blanks hgap,
      ih fun l' hl' => hcut l' (List.mem_cons_of_mem l hl'), List.cons_append]

/-- The lexemes of a text but the last are parts of it, and the last is its end. -/
theorem lexemes_scan_dropLast (s : String) :
    (scan s).map Token.lexeme = (scan s).dropLast.map Token.lexeme ++ [.endOfInput] ∧
      ∀ l ∈ (scan s).dropLast.map Token.lexeme, ∃ before part after,
        l.CutOut before part after := by
  obtain ⟨ts, hscan, hts, -⟩ := exists_scan_placed s
  rw [hscan, List.dropLast_concat, List.map_append]
  refine ⟨rfl, ?_⟩
  intro l hl
  obtain ⟨t, ht, rfl⟩ := List.mem_map.mp hl
  obtain ⟨before, part, after, -, hcut⟩ := hts t ht
  exact ⟨before, part, after, hcut⟩

/-- **The lexemes of a text do not depend on the blanks between them.** -/
theorem lexemes_scan_respaced {s s' : String} (h : Respaced s s') :
    (scan s').map Token.lexeme = (scan s).map Token.lexeme := by
  obtain ⟨front, cs, htext, hfront, hspread⟩ := h
  obtain ⟨hlexemes, hcut⟩ := lexemes_scan_dropLast s
  rw [hlexemes, lexemes_scan, htext, lexemesOf_blanks hfront]
  exact hspread.lexemesOf_eq hcut

end Abacus
