/-!
# Cutting texts

Cutting characters off the ends of a text, cutting a text in two at a character, cutting it into
lines, and writing lines one after another.

## Main definitions

* `strip`: what is left between the ends;
* `cutAt?`: what stands before and behind the first occurrence of a character;
* `lines`: the lines of a text;
* `ofLines`: the text of some lines.

## Main results

* `append_of_cutAt?`, `cutAt?_append`: the parts and the character between them are the text.
-/

namespace Abacus.Text

/-- What is left of a list when the characters satisfying `p` are cut from both of its ends. -/
def strip (p : Char → Bool) (cs : List Char) : List Char :=
  ((cs.dropWhile p).reverse.dropWhile p).reverse

/-- The characters before the first occurrence of a character, and those behind it. -/
def cutAt? (mark : Char) : List Char → Option (List Char × List Char)
  | [] => none
  | c :: cs =>
    if c = mark then some ([], cs)
    else (cutAt? mark cs).map fun parts => (c :: parts.1, parts.2)

/-- The lines of a list of characters.  A line ends at a line feed, or at a carriage return
directly before one; the characters after the last line feed are a line unless there are none. -/
def breakLines : List Char → List (List Char)
  | [] => []
  | '\n' :: cs => [] :: breakLines cs
  | '\r' :: '\n' :: cs => [] :: breakLines cs
  | c :: cs =>
    match breakLines cs with
    | [] => [[c]]
    | line :: rest => (c :: line) :: rest

/-- The lines of a text, without their ends. -/
def lines (s : String) : List String :=
  (breakLines s.toList).map String.ofList

/-- Some lines, each with a line feed behind it. -/
def ofLines (texts : List String) : String :=
  String.join (texts.map (· ++ "\n"))

/-- The parts and the character between them are the text, and the first part does not hold the
character. -/
theorem append_of_cutAt? {mark : Char} {cs before behind : List Char}
    (h : cutAt? mark cs = some (before, behind)) :
    cs = before ++ mark :: behind ∧ mark ∉ before := by
  induction cs generalizing before with
  | nil => simp [cutAt?] at h
  | cons c cs ih =>
    unfold cutAt? at h
    split at h
    · next hc =>
      obtain ⟨rfl, rfl⟩ := Prod.mk.inj (Option.some.inj h)
      exact ⟨by simp [hc], by simp⟩
    · next hc =>
      obtain ⟨parts, hparts, heq⟩ := Option.map_eq_some_iff.1 h
      obtain ⟨rfl, rfl⟩ := Prod.mk.inj heq
      obtain ⟨happend, hnot⟩ := ih hparts
      exact ⟨by rw [happend]; rfl, by simp [hnot, Ne.symm hc]⟩

/-- A list is cut at the first occurrence. -/
theorem cutAt?_append {mark : Char} {before : List Char} (h : mark ∉ before)
    (behind : List Char) : cutAt? mark (before ++ mark :: behind) = some (before, behind) := by
  induction before with
  | nil => simp [cutAt?]
  | cons c before ih =>
    obtain ⟨hc, hbefore⟩ := not_or.mp (mt List.mem_cons.mpr h)
    rw [List.cons_append, cutAt?, if_neg (Ne.symm hc), ih hbefore]
    rfl

end Abacus.Text
