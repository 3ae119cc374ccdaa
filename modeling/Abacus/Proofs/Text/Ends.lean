import Abacus.Text.Blank
import Mathlib.Data.List.DropRight

/-!
# The ends of a text

What is left of a text when some characters are cut off from its ends is bare of them: it neither
begins nor ends with one.  Nothing else is lost, so a list that is bare of them is found again
between any number of them.

## Main definitions

* `Text.Bare`: lists that neither begin nor end with some characters

## Main results

* `Text.strip_infix`, `Text.bare_strip`, `Text.exists_append_strip_append`: what is left and what
  is cut off
* `Text.Bare.strip_append`, `Text.strip_append`: characters around a list that are cut off
-/

namespace Abacus.Text

variable {p : Char → Bool} {cs before behind : List Char}

/-! ### What is left between the ends -/

theorem strip_eq_rdropWhile (p : Char → Bool) (cs : List Char) :
    strip p cs = (cs.dropWhile p).rdropWhile p := rfl

theorem strip_infix : strip p cs <:+: cs := by
  rw [strip_eq_rdropWhile]
  exact (List.rdropWhile_prefix p _).isInfix.trans (List.dropWhile_suffix p).isInfix

theorem not_of_mem_getLast?_strip {c : Char} (h : (strip p cs).getLast? = some c) :
    p c = false := by
  rw [strip_eq_rdropWhile] at h
  obtain ⟨hne, rfl⟩ := List.mem_getLast?_eq_getLast h
  exact Bool.eq_false_iff.mpr (List.rdropWhile_last_not p _ hne)

/-! ### Lists that are bare -/

/-- **Bare of some characters**: neither the first nor the last one of a list satisfies `p`. -/
def Bare (p : Char → Bool) (cs : List Char) : Prop :=
  (∀ c ∈ cs.head?, p c = false) ∧ ∀ c ∈ cs.getLast?, p c = false

-- the two ends are looked at, and not all characters that there are
instance : Decidable (Bare p cs) :=
  @instDecidableAnd _ _ (Option.decidableForallMem _) (Option.decidableForallMem _)

theorem Bare.of_forall (h : ∀ c ∈ cs, p c = false) : Bare p cs :=
  ⟨fun c hc => h c (List.mem_of_mem_head? hc), fun c hc => h c (List.mem_of_mem_getLast? hc)⟩

theorem Bare.of_not_mem {mark : Char} (h : mark ∉ cs) : Bare (· == mark) cs :=
  .of_forall fun _ hc => beq_eq_false_iff_ne.mpr fun heq => h (heq ▸ hc)

/-- Only the ends count. -/
theorem Bare.append_concat (h : Bare p cs) (hne : cs ≠ []) (inner : List Char) {c : Char}
    (hc : p c = false) : Bare p (cs ++ inner ++ [c]) := by
  refine ⟨?_, ?_⟩
  · rw [List.append_assoc, List.head?_append_of_ne_nil _ hne]
    exact h.1
  · simpa using hc

theorem Bare.between {c : Char} (hc : p c = false) : Bare p ([c] ++ cs ++ [c]) :=
  Bare.append_concat (.of_forall (by simpa using hc)) (List.cons_ne_nil c []) cs hc

theorem bare_strip (p : Char → Bool) (cs : List Char) : Bare p (strip p cs) := by
  refine ⟨fun c hc => ?_, fun c hc => not_of_mem_getLast?_strip hc⟩
  obtain ⟨rest, hrest⟩ : strip p cs <+: cs.dropWhile p := List.rdropWhile_prefix p _
  have hhead : (cs.dropWhile p).head? = some c := by
    rw [← hrest, List.head?_append, Option.mem_def.mp hc, Option.some_or]
  simpa [hhead] using List.head?_dropWhile_not p cs

/-! ### What is cut off -/

/-- Only characters satisfying `p` are cut off. -/
theorem exists_append_strip_append (p : Char → Bool) (cs : List Char) :
    ∃ before behind, cs = before ++ strip p cs ++ behind ∧ ∀ c ∈ before ++ behind, p c = true := by
  refine ⟨cs.takeWhile p, (cs.dropWhile p).rtakeWhile p, ?_, fun c hc => ?_⟩
  · rw [strip_eq_rdropWhile, List.append_assoc, List.rdropWhile_append_rtakeWhile,
      List.takeWhile_append_dropWhile]
  · exact (List.mem_append.mp hc).elim List.mem_takeWhile_imp List.mem_rtakeWhile_imp

/-- **All such characters are cut off** from around a list that is bare of them. -/
theorem Bare.strip_append (h : Bare p cs) (haround : ∀ c ∈ before ++ behind, p c = true) :
    strip p (before ++ cs ++ behind) = cs := by
  obtain ⟨hbefore, hbehind⟩ := List.forall_mem_append.mp haround
  have hreverse : ∀ c ∈ behind.reverse, p c = true := by simpa using hbehind
  rw [strip, List.append_assoc, List.dropWhile_append_of_pos hbefore]
  cases cs with
  | nil =>
    rw [List.nil_append, List.dropWhile_eq_nil_iff.mpr hbehind]
    rfl
  | cons c cs =>
    have hc : p c = false := h.1 c rfl
    rw [List.cons_append, List.dropWhile_cons_of_neg (by simp [hc]), ← List.cons_append,
      List.reverse_append, List.dropWhile_append_of_pos hreverse]
    refine List.rdropWhile_eq_self_iff.mpr fun hne => ?_
    exact Bool.eq_false_iff.mp (h.2 _ (List.getLast?_eq_some_getLast hne))

theorem Bare.strip_append_left (h : Bare p cs) (hbefore : ∀ c ∈ before, p c = true) :
    strip p (before ++ cs) = cs := by
  have hstrip : strip p (before ++ cs ++ []) = cs := h.strip_append (by simpa using hbefore)
  rwa [List.append_nil] at hstrip

theorem Bare.strip_append_right (h : Bare p cs) (hbehind : ∀ c ∈ behind, p c = true) :
    strip p (cs ++ behind) = cs := by
  have hstrip : strip p ([] ++ cs ++ behind) = cs := h.strip_append (by simpa using hbehind)
  rwa [List.nil_append] at hstrip

theorem Bare.strip_eq (h : Bare p cs) : strip p cs = cs := by
  have hstrip : strip p ([] ++ cs) = cs := h.strip_append_left (by simp)
  rwa [List.nil_append] at hstrip

/-- What is cut off anyway does not matter. -/
theorem strip_append (haround : ∀ c ∈ before ++ behind, p c = true) :
    strip p (before ++ cs ++ behind) = strip p cs := by
  obtain ⟨first, last, hcs, hcut⟩ := exists_append_strip_append p cs
  obtain ⟨hbefore, hbehind⟩ := List.forall_mem_append.mp haround
  obtain ⟨hfirst, hlast⟩ := List.forall_mem_append.mp hcut
  have hall : ∀ c ∈ (before ++ first) ++ (last ++ behind), p c = true := by
    simp only [List.forall_mem_append]
    exact ⟨⟨hbefore, hfirst⟩, hlast, hbehind⟩
  calc strip p (before ++ cs ++ behind)
      = strip p ((before ++ first) ++ strip p cs ++ (last ++ behind)) := by
        conv_lhs => rw [hcs]
        simp only [List.append_assoc]
    _ = strip p cs := (bare_strip p cs).strip_append hall

end Abacus.Text
