import Abacus.Proofs.Token.Scan

/-!
# Texts read piece by piece

The lexemes of a text do not depend on where it stands.  So a text can be read off its front, one
lexeme at a time: a symbol whatever comes next, and a name or a number if what comes next could
not be a part of it.

## Main definitions

* `lexemesOf`: the lexemes of characters
* `Separated`: characters that do not go on with a name or a number
* `IsNumeral`: the characters of a number

## Main results

* `lexemesOf_symbol`, `lexemesOf_name`, `lexemesOf_number`: the lexeme in front
-/

namespace Abacus

/-- **The lexemes of characters**, closed by the end of input. -/
def lexemesOf (cs : List Char) : List Lexeme := (Cursor.mk cs 0).tokens.map Token.lexeme

namespace Cursor

theorem lexemes_tokens_eq {k k' : Cursor} (h : k.rest = k'.rest) :
    k.tokens.map Token.lexeme = k'.tokens.map Token.lexeme := by
  have hskip (k k' : Cursor) (h : k.rest = k'.rest) : k.skipBlanks.rest = k'.skipBlanks.rest := by
    rw [skipBlanks, skipBlanks, h]
  induction k using tokens.induct generalizing k' with
  | case1 k hnil =>
    have hnil' : k'.skipBlanks.rest = [] := (hskip k k' h).symm.trans hnil
    rw [tokens_of_nil hnil, tokens_of_nil hnil', List.map_singleton, List.map_singleton,
      lexeme_next_of_nil hnil, lexeme_next_of_nil hnil']
  | case2 k c cs hcons ih =>
    have hcons' : k'.skipBlanks.rest = c :: cs := (hskip k k' h).symm.trans hcons
    have hrest : k.next.2.rest = k'.next.2.rest := by
      rw [rest_next_of_cons hcons, rest_next_of_cons hcons']
    rw [tokens_of_cons hcons, tokens_of_cons hcons', List.map_cons, List.map_cons,
      lexeme_next_of_cons hcons, lexeme_next_of_cons hcons', ih hrest]

theorem lexemes_tokens (k : Cursor) : k.tokens.map Token.lexeme = lexemesOf k.rest :=
  lexemes_tokens_eq rfl

end Cursor

theorem lexemes_scan (s : String) : (scan s).map Token.lexeme = lexemesOf s.toList :=
  (Cursor.ofText s).lexemes_tokens

theorem lexemesOf_nil : lexemesOf [] = [.endOfInput] := by
  have hnil : (Cursor.mk [] 0).skipBlanks.rest = [] := rfl
  rw [lexemesOf, Cursor.tokens_of_nil hnil, List.map_singleton, Cursor.lexeme_next_of_nil hnil]

theorem lexemesOf_blank {c : Char} (h : Text.isBlank c = true) (cs : List Char) :
    lexemesOf (c :: cs) = lexemesOf cs := by
  -- the two places are the same behind the blanks
  have hskip : (Cursor.mk (c :: cs) 0).skipBlanks.rest = (Cursor.mk cs 0).skipBlanks.rest := by
    rw [Cursor.skipBlanks, Cursor.skipBlanks, List.dropWhile_cons_of_pos h]
  unfold lexemesOf
  cases hrest : (Cursor.mk cs 0).skipBlanks.rest with
  | nil =>
    rw [Cursor.tokens_of_nil (hskip.trans hrest), Cursor.tokens_of_nil hrest,
      List.map_singleton, List.map_singleton, Cursor.lexeme_next_of_nil (hskip.trans hrest),
      Cursor.lexeme_next_of_nil hrest]
  | cons c' cs' =>
    rw [Cursor.tokens_of_cons (hskip.trans hrest), Cursor.tokens_of_cons hrest, List.map_cons,
      List.map_cons, Cursor.lexeme_next_of_cons (hskip.trans hrest),
      Cursor.lexeme_next_of_cons hrest, Cursor.lexemes_tokens, Cursor.lexemes_tokens,
      Cursor.rest_next_of_cons (hskip.trans hrest), Cursor.rest_next_of_cons hrest]

theorem lexemesOf_cons {c : Char} (h : Text.isBlank c = false) (cs : List Char) :
    lexemesOf (c :: cs) = (Lexeme.readAt c cs).1 :: lexemesOf (Lexeme.readAt c cs).2 := by
  have hskip : (Cursor.mk (c :: cs) 0).skipBlanks.rest = c :: cs := by
    rw [Cursor.skipBlanks]
    exact List.dropWhile_cons_of_neg (by rw [h]; exact Bool.false_ne_true)
  rw [lexemesOf, Cursor.tokens_of_cons hskip, List.map_cons, Cursor.lexeme_next_of_cons hskip,
    Cursor.lexemes_tokens, Cursor.rest_next_of_cons hskip]

/-! ### The lexeme in front -/

theorem lexemesOf_symbol (s : Symbol) (cs : List Char) :
    lexemesOf (s.char :: cs) = .symbol s :: lexemesOf cs := by
  have hblank : Text.isBlank s.char = false := by cases s <;> decide
  rw [lexemesOf_cons hblank, Lexeme.readAt, Symbol.ofChar?_char]

/-- What comes next is no part of a name or a number. -/
def Separated (cs : List Char) : Prop :=
  ∀ c ∈ cs.head?, isNameChar c = false ∧ c.isDigit = false ∧ c ≠ '.'

theorem separated_nil : Separated [] := nofun

theorem separated_symbol (s : Symbol) (cs : List Char) : Separated (s.char :: cs) := by
  intro c hc
  cases hc
  cases s <;> decide

theorem separated_space (cs : List Char) : Separated (' ' :: cs) := by
  intro c hc
  cases hc
  decide

section

variable {c : Char}

theorem toNat_of_isDigit (h : c.isDigit = true) : 48 ≤ c.toNat ∧ c.toNat ≤ 57 := by
  simp only [Char.isDigit, Bool.and_eq_true, decide_eq_true_eq] at h
  exact h

/-- A symbol is neither a digit nor a character of names. -/
theorem ofChar?_eq_none (h : c.isDigit = true ∨ isNameChar c = true) :
    Symbol.ofChar? c = none := by
  cases hs : Symbol.ofChar? c with
  | none => rfl
  | some s =>
    obtain rfl := Symbol.char_of_ofChar? hs
    rcases h with h | h
    · cases s <;> cases h
    · revert h
      cases s <;> decide

theorem isBlank_of_isDigit (h : c.isDigit = true) : Text.isBlank c = false := by
  obtain ⟨hlow, hhigh⟩ := toNat_of_isDigit h
  simp only [Text.isBlank, Bool.or_eq_false_iff, Bool.and_eq_false_iff, beq_eq_false_iff_ne,
    decide_eq_false_iff_not]
  omega

theorem isDigit_of_isNameChar (h : isNameChar c = true) : c.isDigit = false := by
  rw [← Bool.not_eq_true]
  intro hdigit
  obtain ⟨hlow, hhigh⟩ := toNat_of_isDigit hdigit
  rw [isNameChar, Text.isAlphabetic_of_ascii (by omega), Bool.or_eq_true] at h
  rcases h with hletter | hunderscore
  · change (decide (c.val ≥ 'A'.val ∧ c.val ≤ 'Z'.val) ||
      (decide (c.val ≥ 'a'.val) && decide (c.val ≤ 'z'.val))) = true at hletter
    simp only [Bool.or_eq_true, Bool.and_eq_true, decide_eq_true_eq, ge_iff_le,
      UInt32.le_iff_toNat_le] at hletter
    change (65 ≤ c.toNat ∧ c.toNat ≤ 90) ∨ (97 ≤ c.toNat ∧ c.toNat ≤ 122) at hletter
    omega
  · rw [eq_of_beq hunderscore] at hhigh
    exact absurd hhigh (by decide)

/-- The code points of blank characters. -/
def blankCodes : List Nat :=
  [0x09, 0x0A, 0x0B, 0x0C, 0x0D, 0x20, 0x85, 0xA0, 0x1680, 0x2000, 0x2001, 0x2002, 0x2003, 0x2004,
    0x2005, 0x2006, 0x2007, 0x2008, 0x2009, 0x200A, 0x2028, 0x2029, 0x202F, 0x205F, 0x3000]

theorem isBlank_of_isNameChar (h : isNameChar c = true) : Text.isBlank c = false := by
  rw [← Bool.not_eq_true]
  intro hblank
  have hcode : c.toNat ∈ blankCodes := by
    simp only [Text.isBlank, Bool.or_eq_true, Bool.and_eq_true, beq_iff_eq, decide_eq_true_eq]
      at hblank
    simp only [blankCodes, List.mem_cons, List.not_mem_nil, or_false]
    omega
  -- of the blank characters none is alphabetic
  have hnone : ∀ n ∈ blankCodes, isNameChar (Char.ofNat n) = false := by decide +kernel
  have hname := hnone c.toNat hcode
  rw [Char.ofNat_toNat, h] at hname
  cases hname

end

/-- **A name**, up to what is no part of it. -/
theorem lexemesOf_name {c : Char} {cs rest : List Char}
    (h : ∀ x ∈ c :: cs, isNameChar x = true) (hrest : Separated rest) :
    lexemesOf (c :: cs ++ rest) = .name (String.ofList (c :: cs)) :: lexemesOf rest := by
  have hc : isNameChar c = true := h c List.mem_cons_self
  have hcs : ∀ x ∈ cs, isNameChar x = true := fun x hx => h x (List.mem_cons_of_mem c hx)
  have hend : rest.takeWhile isNameChar = [] ∧ rest.dropWhile isNameChar = rest := by
    cases rest with
    | nil => exact ⟨rfl, rfl⟩
    | cons x rest =>
      have hx : ¬ isNameChar x = true := by
        rw [(hrest x rfl).1]
        nofun
      exact ⟨List.takeWhile_cons_of_neg hx, List.dropWhile_cons_of_neg hx⟩
  have hread : Lexeme.readAt c (cs ++ rest) = (.name (String.ofList (c :: cs)), rest) := by
    rw [Lexeme.readAt, ofChar?_eq_none (.inr hc)]
    simp [isDigit_of_isNameChar hc, hc, List.takeWhile_append_of_pos hcs,
      List.dropWhile_append_of_pos hcs, hend]
  rw [List.cons_append, lexemesOf_cons (isBlank_of_isNameChar hc), hread]

/-- **The characters of a number**: digits, and maybe a point and any more digits. -/
inductive IsNumeral : List Char → Prop
  | whole {c : Char} {ds : List Char} : (∀ x ∈ c :: ds, x.isDigit = true) → IsNumeral (c :: ds)
  | point {c : Char} {ds es : List Char} : (∀ x ∈ c :: ds, x.isDigit = true) →
    (∀ x ∈ es, x.isDigit = true) → IsNumeral (c :: ds ++ '.' :: es)

theorem takeWhile_isDigit_of_separated {rest : List Char} (h : Separated rest) :
    rest.takeWhile Char.isDigit = [] ∧ rest.dropWhile Char.isDigit = rest := by
  cases rest with
  | nil => exact ⟨rfl, rfl⟩
  | cons x rest =>
    have hx : ¬ x.isDigit = true := by
      rw [(h x rfl).2.1]
      nofun
    exact ⟨List.takeWhile_cons_of_neg hx, List.dropWhile_cons_of_neg hx⟩

theorem splitNumber_of_isNumeral {cs rest : List Char} (h : IsNumeral cs) (hrest : Separated rest) :
    splitNumber (cs ++ rest) = (cs, rest) := by
  obtain ⟨htake, hdrop⟩ := takeWhile_isDigit_of_separated hrest
  cases h with
  | @whole c ds hds =>
    unfold splitNumber
    rw [List.takeWhile_append_of_pos hds, List.dropWhile_append_of_pos hds, htake, hdrop,
      List.append_nil]
    split
    -- what comes next is no point
    · exact absurd rfl (hrest '.' rfl).2.2
    · rfl
  | @point c ds es hds hes =>
    have hpoint : ('.' :: es ++ rest).takeWhile Char.isDigit = [] := rfl
    have hpoint' : ('.' :: es ++ rest).dropWhile Char.isDigit = '.' :: (es ++ rest) := rfl
    unfold splitNumber
    rw [List.append_assoc, List.takeWhile_append_of_pos hds, List.dropWhile_append_of_pos hds,
      hpoint, hpoint']
    simp [List.takeWhile_append_of_pos hes, List.dropWhile_append_of_pos hes, htake, hdrop]

/-- **A number**, up to what is no part of it. -/
theorem lexemesOf_number {cs rest : List Char} (h : IsNumeral cs) (hrest : Separated rest) :
    lexemesOf (cs ++ rest) = .number (String.ofList cs) :: lexemesOf rest := by
  have hsplit := splitNumber_of_isNumeral h hrest
  obtain ⟨c, others, rfl, hc⟩ : ∃ c others, cs = c :: others ∧ c.isDigit = true := by
    cases h with
    | whole hds => exact ⟨_, _, rfl, hds _ List.mem_cons_self⟩
    | point hds _ => exact ⟨_, _, rfl, hds _ List.mem_cons_self⟩
  rw [List.cons_append] at hsplit ⊢
  rw [lexemesOf_cons (isBlank_of_isDigit hc), Lexeme.readAt, ofChar?_eq_none (.inl hc)]
  simp only [hc, if_true, hsplit]

end Abacus
