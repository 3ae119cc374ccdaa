import Abacus.Decimal.Numeral
import Abacus.Token.Scan
import Mathlib.Data.List.TakeWhile

/-!
# The tokens of a text

What the tokens of every text have in common: the last one is the end of input and no other is,
and the digits of a number are those of a numeral.

## Main results

* `exists_scan_eq`: the end of input closes the tokens of a text
* `exists_read?_of_mem_scan`: a number has a value
-/

namespace Abacus

/-! ### Numbers -/

namespace Decimal

/-- A digit begins no word. -/
theorem readUnsigned?_of_isDigit {c : Char} {cs : List Char} (h : c.isDigit = true) :
    readUnsigned? (c :: cs) = readDecimal? (c :: cs) := by
  have hlower : c.toLower = c := by
    unfold Char.isDigit at h
    unfold Char.toLower
    rw [dif_neg]
    simp only [ge_iff_le, Bool.and_eq_true, decide_eq_true_eq, UInt32.le_iff_toNat_le] at h ⊢
    intro hupper
    have hmax := h.2
    have hmin := hupper.1
    change 65 ≤ c.val.toNat at hmin
    change c.val.toNat ≤ 57 at hmax
    omega
  have hword (word : String) (hletters : word.toList.any Char.isDigit = false) :
      String.ofList ((c :: cs).map Char.toLower) ≠ word := by
    rintro rfl
    rw [String.toList_ofList, List.map_cons, hlower, List.any_cons, h] at hletters
    cases hletters
  unfold readUnsigned?
  split
  · next heq => exact absurd heq (hword "inf" (by decide))
  · next heq => exact absurd heq (hword "infinity" (by decide))
  · next heq => exact absurd heq (hword "nan" (by decide))
  · rfl

/-- Nor is it a sign. -/
theorem read?_of_isDigit {c : Char} {cs : List Char} (h : c.isDigit = true) :
    read? (String.ofList (c :: cs)) = readDecimal? (c :: cs) := by
  rw [← readUnsigned?_of_isDigit h]
  unfold read?
  rw [String.toList_ofList]
  split
  · next heq =>
    cases heq
    cases h
  · next heq =>
    cases heq
    cases h
  · rfl

section

variable {ds es : List Char} (hds : ∀ c ∈ ds, c.isDigit = true) (hne : ds ≠ [])

include hds hne

/-- Digits, of which there is one at least, are read as a decimal. -/
theorem readDecimal?_digits : readDecimal? ds = some (nearest (ofDigits ds) 0) := by
  have htake : ds.takeWhile Char.isDigit = ds := List.takeWhile_eq_self_iff.mpr hds
  have hdrop : ds.dropWhile Char.isDigit = [] := List.dropWhile_eq_nil_iff.mpr hds
  simp [readDecimal?, htake, hdrop, hne, readExponent?]

/-- So are digits, a point, and any more digits. -/
theorem readDecimal?_digits_point (hes : ∀ c ∈ es, c.isDigit = true) :
    readDecimal? (ds ++ '.' :: es) = some (nearest (ofDigits (ds ++ es)) (-es.length)) := by
  have hpoint : ('.' :: es).takeWhile Char.isDigit = [] := rfl
  have hrest : ('.' :: es).dropWhile Char.isDigit = '.' :: es := rfl
  have htake : es.takeWhile Char.isDigit = es := List.takeWhile_eq_self_iff.mpr hes
  have hdrop : es.dropWhile Char.isDigit = [] := List.dropWhile_eq_nil_iff.mpr hes
  simp [readDecimal?, List.takeWhile_append_of_pos hds, List.dropWhile_append_of_pos hds, hpoint,
    hrest, htake, hdrop, hne, readExponent?]

end

theorem readDecimal?_splitNumber {c : Char} (cs : List Char) (h : c.isDigit = true) :
    ∃ value, readDecimal? (splitNumber (c :: cs)).1 = some value := by
  have hdigits (ds : List Char) : ∀ x ∈ ds.takeWhile Char.isDigit, x.isDigit = true :=
    List.all_eq_true.mp List.all_takeWhile
  have hne : (c :: cs).takeWhile Char.isDigit ≠ [] := by simp [h]
  unfold splitNumber
  split
  -- with a point, or without
  · exact ⟨_, readDecimal?_digits_point (hdigits _) hne (hdigits _)⟩
  · exact ⟨_, readDecimal?_digits (hdigits _) hne⟩

end Decimal

theorem exists_splitNumber_eq {c : Char} (cs : List Char) (h : c.isDigit = true) :
    ∃ cs', (splitNumber (c :: cs)).1 = c :: cs' := by
  unfold splitNumber
  rw [List.takeWhile_cons_of_pos h]
  split
  · exact ⟨_, rfl⟩
  · exact ⟨_, rfl⟩

/-- The digits of a lexeme that was read are those of a numeral. -/
theorem Lexeme.exists_read?_of_readAt {c : Char} {cs : List Char} {digits : String}
    (h : (readAt c cs).1 = .number digits) : ∃ value, Decimal.read? digits = some value := by
  unfold readAt at h
  split at h
  · cases h
  · split at h
    · next hdigit =>
      cases h
      obtain ⟨value, hvalue⟩ := Decimal.readDecimal?_splitNumber cs hdigit
      obtain ⟨cs', hcs'⟩ := exists_splitNumber_eq cs hdigit
      rw [hcs'] at hvalue ⊢
      rw [Decimal.read?_of_isDigit hdigit]
      exact ⟨value, hvalue⟩
    · split at h <;> cases h

theorem Lexeme.readAt_ne_endOfInput (c : Char) (cs : List Char) :
    (readAt c cs).1 ≠ .endOfInput := by
  unfold readAt
  split
  · nofun
  · split
    · nofun
    · split <;> nofun

namespace Cursor

/-- The next token is the end of input where nothing but blanks is left, and only there. -/
theorem lexeme_next_of_nil {k : Cursor} (h : k.skipBlanks.rest = []) :
    k.next.1.lexeme = .endOfInput := by
  simp only [next, h]
  rfl

theorem lexeme_next_of_cons {k : Cursor} {c : Char} {cs : List Char}
    (h : k.skipBlanks.rest = c :: cs) : k.next.1.lexeme = (Lexeme.readAt c cs).1 := by
  simp only [next, h]

theorem rest_next_of_cons {k : Cursor} {c : Char} {cs : List Char}
    (h : k.skipBlanks.rest = c :: cs) : k.next.2.rest = (Lexeme.readAt c cs).2 := by
  simp only [next, h]

theorem tokens_of_nil {k : Cursor} (h : k.skipBlanks.rest = []) : k.tokens = [k.next.1] := by
  rw [tokens]
  split
  · rfl
  · next heq => rw [h] at heq; cases heq

theorem tokens_of_cons {k : Cursor} {c : Char} {cs : List Char} (h : k.skipBlanks.rest = c :: cs) :
    k.tokens = k.next.1 :: k.next.2.tokens := by
  rw [tokens]
  split
  · next heq => rw [h] at heq; cases heq
  · rfl

/-- **The end of input closes the tokens** from any place on, and stands nowhere else. -/
theorem exists_tokens_eq (k : Cursor) :
    ∃ ts last, k.tokens = ts ++ [last] ∧ last.lexeme = .endOfInput ∧
      ∀ t ∈ ts, t.lexeme ≠ .endOfInput := by
  induction k using tokens.induct with
  -- only blanks are left
  | case1 k h =>
    exact ⟨[], k.next.1, tokens_of_nil h, lexeme_next_of_nil h, nofun⟩
  | case2 k c cs h ih =>
    obtain ⟨ts, last, htokens, hlast, hts⟩ := ih
    refine ⟨k.next.1 :: ts, last, ?_, hlast, ?_⟩
    · rw [tokens_of_cons h, htokens, List.cons_append]
    · intro t ht
      rcases List.mem_cons.mp ht with rfl | ht
      · rw [lexeme_next_of_cons h]
        exact Lexeme.readAt_ne_endOfInput c cs
      · exact hts t ht

theorem exists_read?_of_mem_tokens {k : Cursor} {t : Token} {digits : String} (h : t ∈ k.tokens)
    (hnumber : t.lexeme = .number digits) : ∃ value, Decimal.read? digits = some value := by
  induction k using tokens.induct with
  | case1 k hnil =>
    rw [tokens_of_nil hnil] at h
    obtain rfl := List.mem_singleton.mp h
    rw [lexeme_next_of_nil hnil] at hnumber
    cases hnumber
  | case2 k c cs hcons ih =>
    rw [tokens_of_cons hcons] at h
    rcases List.mem_cons.mp h with rfl | h
    · rw [lexeme_next_of_cons hcons] at hnumber
      exact Lexeme.exists_read?_of_readAt hnumber
    · exact ih h

end Cursor

/-- The tokens of a text are closed by the end of input. -/
theorem exists_scan_eq (s : String) :
    ∃ ts last, scan s = ts ++ [last] ∧ last.lexeme = .endOfInput ∧
      ∀ t ∈ ts, t.lexeme ≠ .endOfInput :=
  (Cursor.ofText s).exists_tokens_eq

/-- The digits of every number in a text have a value. -/
theorem exists_read?_of_mem_scan {s : String} {t : Token} {digits : String} (h : t ∈ scan s)
    (hnumber : t.lexeme = .number digits) : ∃ value, Decimal.read? digits = some value :=
  Cursor.exists_read?_of_mem_tokens h hnumber

/-! ### Texts of lexemes -/

/-- The lexeme is read back from its spelling with a blank behind it. -/
def Lexeme.Legible (l : Lexeme) : Prop :=
  ∃ c cs, l.spelling = c :: cs ∧ Text.isBlank c = false ∧
    ∀ rest, readAt c (cs ++ ' ' :: rest) = (l, ' ' :: rest)

theorem Lexeme.legible_symbol (s : Symbol) : (Lexeme.symbol s).Legible := by
  refine ⟨s.char, [], rfl, ?_, fun rest => ?_⟩
  · cases s <;> decide
  · rw [readAt, Symbol.ofChar?_char]
    rfl

theorem Lexeme.legible_one : (Lexeme.number "1").Legible :=
  ⟨'1', [], rfl, by decide, fun _ => rfl⟩

/-- The spellings of some lexemes, each with a blank behind it. -/
def spacedChars (ls : List Lexeme) : List Char := ls.flatMap fun l => l.spelling ++ [' ']

def spaced (ls : List Lexeme) : String := String.ofList (spacedChars ls)

theorem dropWhile_spacedChars {ls : List Lexeme} (h : ∀ l ∈ ls, l.Legible) :
    (spacedChars ls).dropWhile Text.isBlank = spacedChars ls := by
  cases ls with
  | nil => rfl
  | cons l ls =>
    obtain ⟨c, cs, hspelling, hblank, -⟩ := h l List.mem_cons_self
    rw [spacedChars, List.flatMap_cons, hspelling]
    exact List.dropWhile_cons_of_neg (by rw [hblank]; nofun)

theorem Cursor.lexemes_tokens_spaced {ls : List Lexeme} (h : ∀ l ∈ ls, l.Legible) {k : Cursor}
    (hk : k.skipBlanks.rest = spacedChars ls) :
    k.tokens.map Token.lexeme = ls ++ [.endOfInput] := by
  induction ls generalizing k with
  | nil =>
    rw [tokens_of_nil hk, List.map_singleton, lexeme_next_of_nil hk]
    rfl
  | cons l ls ih =>
    obtain ⟨c, cs, hspelling, hblank, hread⟩ := h l List.mem_cons_self
    have hrest : spacedChars (l :: ls) = c :: (cs ++ ' ' :: spacedChars ls) := by
      simp [spacedChars, hspelling]
    rw [hrest] at hk
    have hlegible : ∀ l' ∈ ls, l'.Legible := fun l' hl' => h l' (List.mem_cons_of_mem l hl')
    have hnext : k.next.2.skipBlanks.rest = spacedChars ls := by
      rw [skipBlanks, rest_next_of_cons hk, hread]
      exact dropWhile_spacedChars hlegible
    rw [tokens_of_cons hk, List.map_cons, lexeme_next_of_cons hk, hread, ih hlegible hnext,
      List.cons_append]

/-- **Legible lexemes are read back** from a text that spells them with blanks between. -/
theorem scan_spaced {ls : List Lexeme} (h : ∀ l ∈ ls, l.Legible) :
    (scan (spaced ls)).map Token.lexeme = ls ++ [.endOfInput] := by
  refine Cursor.lexemes_tokens_spaced h ?_
  rw [Cursor.skipBlanks, Cursor.ofText, spaced, String.toList_ofList]
  exact dropWhile_spacedChars h

end Abacus
