import Abacus.Proofs.Text.Ends

/-!
# Lines put together and taken apart again

Lines with a line feed between them are the lines of the text so made, unless one of them is
empty, holds a line feed itself, or ends in a carriage return, which would go with the line feed
behind it.

## Main results

* `Text.breakLines_append_lineFeed`: what stands before a line feed is a line;
* `Text.lines_intercalate`: lines with a line feed between them.
-/

namespace Abacus.Text

variable {cs : List Char}

/-! ### Where lines end -/

/-- A character goes with what follows, but for a line feed and for a carriage return before
one. -/
theorem breakLines_cons {c : Char} (hfeed : c ≠ '\n') (hreturn : c = '\r' → cs.head? ≠ some '\n') :
    breakLines (c :: cs) =
      match breakLines cs with
      | [] => [[c]]
      | line :: rest => (c :: line) :: rest := by
  refine breakLines.eq_4 c cs hfeed fun rest hc hcs => hreturn hc ?_
  rw [hcs]
  rfl

theorem breakLines_append_lineFeed {line : List Char} (hfeed : '\n' ∉ line)
    (hreturn : line.getLast? ≠ some '\r') (rest : List Char) :
    breakLines (line ++ '\n' :: rest) = line :: breakLines rest := by
  induction line with
  | nil => rfl
  | cons c line ih =>
    obtain ⟨hc, hline⟩ := not_or.mp (mt List.mem_cons.mpr hfeed)
    have hnext : c = '\r' → (line ++ '\n' :: rest).head? ≠ some '\n' := by
      rintro rfl
      cases line with
      | nil => exact absurd rfl hreturn
      | cons d line => simpa using Ne.symm (List.ne_of_not_mem_cons hline)
    have hlast : line.getLast? ≠ some '\r' := by
      cases line with
      | nil => simp
      | cons d line => rwa [List.getLast?_cons_cons] at hreturn
    rw [List.cons_append, breakLines_cons (Ne.symm hc) hnext, ih hline hlast]

/-- The characters of a line are characters of the text. -/
theorem mem_of_mem_breakLines {cs line : List Char} {c : Char} (hline : line ∈ breakLines cs)
    (hc : c ∈ line) : c ∈ cs := by
  fun_induction breakLines cs generalizing line with
  | case1 => cases hline
  | case2 cs ih =>
    rcases List.mem_cons.mp hline with rfl | hline
    · cases hc
    · exact List.mem_cons_of_mem _ (ih hline hc)
  | case3 cs ih =>
    rcases List.mem_cons.mp hline with rfl | hline
    · cases hc
    · exact List.mem_cons_of_mem _ (List.mem_cons_of_mem _ (ih hline hc))
  | case4 d cs _ _ hnone ih =>
    obtain rfl := List.mem_singleton.mp hline
    exact List.mem_cons.mpr (.inl (List.mem_singleton.mp hc))
  | case5 d cs _ _ first rest hlines ih =>
    rcases List.mem_cons.mp hline with rfl | hline
    -- the first line goes on with the first one of what follows
    · rcases List.mem_cons.mp hc with rfl | hc
      · exact List.mem_cons_self
      · exact List.mem_cons_of_mem _ (ih (hlines ▸ List.mem_cons_self) hc)
    · exact List.mem_cons_of_mem _ (ih (hlines ▸ List.mem_cons_of_mem _ hline) hc)

theorem breakLines_singleton {line : List Char} (hne : line ≠ []) (hfeed : '\n' ∉ line) :
    breakLines line = [line] := by
  induction line with
  | nil => exact absurd rfl hne
  | cons c line ih =>
    obtain ⟨hc, hline⟩ := not_or.mp (mt List.mem_cons.mpr hfeed)
    have hnext : line.head? ≠ some '\n' := fun h => hline (List.mem_of_mem_head? h)
    rw [breakLines_cons (Ne.symm hc) fun _ => hnext]
    cases line with
    | nil => rfl
    | cons d line => rw [ih (List.cons_ne_nil d line) hline]

/-- **Lines with a line feed between them** are the lines of the text. -/
theorem breakLines_intercalate {ls : List (List Char)}
    (h : ∀ line ∈ ls, line ≠ [] ∧ '\n' ∉ line ∧ line.getLast? ≠ some '\r') :
    breakLines (['\n'].intercalate ls) = ls := by
  induction ls with
  | nil => rfl
  | cons line rest ih =>
    obtain ⟨hne, hfeed, hreturn⟩ := h line List.mem_cons_self
    cases rest with
    | nil => rw [List.intercalate_singleton, breakLines_singleton hne hfeed]
    | cons next rest =>
      rw [List.intercalate_cons_cons, List.append_assoc, List.singleton_append,
        breakLines_append_lineFeed hfeed hreturn, ih fun l hl => h l (List.mem_cons_of_mem _ hl)]

theorem lines_intercalate {texts : List String}
    (h : ∀ s ∈ texts, s ≠ "" ∧ '\n' ∉ s.toList ∧ s.toList.getLast? ≠ some '\r') :
    lines ("\n".intercalate texts) = texts := by
  have hchars : ∀ line ∈ texts.map String.toList,
      line ≠ [] ∧ '\n' ∉ line ∧ line.getLast? ≠ some '\r' := by
    simpa [String.toList_eq_nil_iff] using h
  unfold lines
  rw [String.toList_intercalate]
  have hbreak := breakLines_intercalate hchars
  rw [show "\n".toList = ['\n'] from rfl, hbreak, List.map_map]
  simp [Function.comp_def]

/-! ### Bytes -/

/-- The bytes of a text are read as that text. -/
theorem fromUTF8?_toUTF8 (s : String) : String.fromUTF8? s.toUTF8 = some s := by
  simp only [String.fromUTF8?, String.toUTF8_eq_toByteArray, dif_pos s.isValidUTF8]
  rfl

end Abacus.Text
