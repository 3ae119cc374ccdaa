import Abacus.Proofs.Token.Reading
import Mathlib.Data.List.Chain

/-!
# The tokens of a text account for all of it

Each token is cut out of the text where its span says, and nothing but blanks lies between one
token and the next, before the first and behind the last.  What is cut out is as long as it can
be: no digit or point that could go on with a number stands behind it, and a name has no letter on
either side.

A text is followed by what has been passed and what is left of it.  Blanks that are skipped and the
lexeme that is read move characters from the one to the other, and the offset counts the bytes of
what has been passed.

## Main definitions

* `Span.Cuts`: a span as the place of a part of a text
* `Lexeme.CutOut`: which lexeme a part of a text is
* `Cursor.Passed`: what has been passed where a cursor stands

## Main results

* `Lexeme.cutOut_readAt`: the lexeme that is read
* `Cursor.exists_tokens_placed`: the tokens from a place on
* `scan_accounts`: the tokens of a text
-/

namespace Abacus

/-! ### Bytes -/

theorem byteLength_eq_utf8ByteSize (cs : List Char) :
    byteLength cs = (String.ofList cs).utf8ByteSize := by
  induction cs with
  | nil => rfl
  | cons c cs ih =>
    have happend : String.ofList ([c] ++ cs) = String.ofList [c] ++ String.ofList cs :=
      String.ofList_append
    rw [List.singleton_append] at happend
    rw [happend, String.utf8ByteSize_append, byteLength_cons, ih]
    simp

theorem byteLength_toList (s : String) : byteLength s.toList = s.utf8ByteSize := by
  rw [byteLength_eq_utf8ByteSize, String.ofList_toList]

theorem byteLength_pos {cs : List Char} (h : cs ≠ []) : 0 < byteLength cs := by
  obtain ⟨c, cs, rfl⟩ := List.exists_cons_of_ne_nil h
  exact Nat.add_pos_left c.utf8Size_pos _

/-! ### Parts of a text -/

/-- **The span is the place of a part** of the text, with what stands before it and behind it. -/
structure Span.Cuts (a : Span) (s : String) (before part after : List Char) : Prop where
  text : s.toList = before ++ part ++ after
  start : a.start = byteLength before
  stop : a.stop = byteLength (before ++ part)

/-- Nothing but blanks stands between one span and the next, which begins where the first has ended
or later. -/
def Span.BlankUpTo (s : String) (a b : Span) : Prop :=
  a.stop ≤ b.start ∧ ∃ before blanks after,
    (Span.mk a.stop b.start).Cuts s before blanks after ∧ ∀ c ∈ blanks, Text.isBlank c = true

/-- The offset lies between two characters of the text, or at one of its ends. -/
def IsBoundary (s : String) (offset : Nat) : Prop := (String.Pos.Raw.mk offset).IsValid s

theorem Span.Cuts.isBoundary {a : Span} {s : String} {before part after : List Char}
    (h : a.Cuts s before part after) : IsBoundary s a.start ∧ IsBoundary s a.stop := by
  have hboundary {front back : List Char} (htext : s.toList = front ++ back) :
      IsBoundary s (byteLength front) := by
    refine String.Pos.Raw.isValid_iff_exists_append.mpr
      ⟨String.ofList front, String.ofList back, ?_, ?_⟩
    · rw [← String.ofList_append, ← htext, String.ofList_toList]
    · rw [byteLength_eq_utf8ByteSize]
      rfl
  -- what stands before the span, and that with the part itself, are the front of the text
  rw [h.start, h.stop]
  exact ⟨hboundary (h.text.trans (List.append_assoc ..)), hboundary h.text⟩

/-- **Which lexeme a part of a text is**, given what stands before it and behind it.

* A symbol is one character, and carries no text.
* A number is digits, perhaps with a point among them or behind them.  No digit follows, and no
  point if there was none.
* A name is letters and underscores, and none of these stands on either side.
* Any other character that is not blank is a lexeme by itself. -/
inductive Lexeme.CutOut (before part after : List Char) : Lexeme → Prop
  | symbol {s : Symbol} : part = [s.char] → CutOut before part after (.symbol s)
  | number : IsNumeral part → (∀ c ∈ after.head?, c.isDigit = false) →
    ('.' ∉ part → after.head? ≠ some '.') → CutOut before part after (.number (String.ofList part))
  | name : part ≠ [] → (∀ c ∈ part, isNameChar c = true) →
    (∀ c ∈ before.getLast?, isNameChar c = false) → (∀ c ∈ after.head?, isNameChar c = false) →
    CutOut before part after (.name (String.ofList part))
  | unexpected {c : Char} : part = [c] → Symbol.ofChar? c = none → c.isDigit = false →
    isNameChar c = false → Text.isBlank c = false → CutOut before part after (.unexpected c)

namespace Lexeme

theorem CutOut.spelling_eq {before part after : List Char} {l : Lexeme}
    (h : CutOut before part after l) : l.spelling = part := by
  cases h with
  | symbol hpart => exact hpart.symm
  | number _ _ _ => exact String.toList_ofList
  | name _ _ _ _ => exact String.toList_ofList
  | unexpected hpart _ _ _ _ => exact hpart.symm

theorem CutOut.part_ne_nil {before part after : List Char} {l : Lexeme}
    (h : CutOut before part after l) : part ≠ [] := by
  cases h with
  | symbol hpart => simp [hpart]
  | number hnumeral _ _ => cases hnumeral <;> simp
  | name hne _ _ _ => exact hne
  | unexpected hpart _ _ _ _ => simp [hpart]

end Lexeme

/-! ### The lexeme that is read -/

theorem IsNumeral.isDigit_or_point {cs : List Char} (h : IsNumeral cs) :
    ∀ c ∈ cs, c.isDigit = true ∨ c = '.' := by
  intro c hc
  cases h with
  | whole hds => exact .inl (hds c hc)
  | point hds hes =>
    rcases List.mem_append.mp hc with hc | hc
    · exact .inl (hds c hc)
    · rcases List.mem_cons.mp hc with rfl | hc
      · exact .inr rfl
      · exact .inl (hes c hc)

theorem head?_dropWhile {p : Char → Bool} {cs : List Char} :
    ∀ c ∈ (cs.dropWhile p).head?, p c = false := by
  intro c hc
  have hhead := List.head?_dropWhile_not p cs
  rwa [hc] at hhead

/-- Digits are split off a text up to where they could not go on. -/
theorem splitNumber_cut {c : Char} (cs : List Char) (h : c.isDigit = true) :
    IsNumeral (splitNumber (c :: cs)).1 ∧
      (∀ x ∈ (splitNumber (c :: cs)).2.head?, x.isDigit = false) ∧
      ('.' ∉ (splitNumber (c :: cs)).1 → (splitNumber (c :: cs)).2.head? ≠ some '.') := by
  have htake : (c :: cs).takeWhile Char.isDigit = c :: cs.takeWhile Char.isDigit :=
    List.takeWhile_cons_of_pos h
  have hdigits (ds : List Char) : ∀ x ∈ ds.takeWhile Char.isDigit, x.isDigit = true :=
    fun x hx => List.mem_takeWhile_imp hx
  have hwhole : ∀ x ∈ c :: cs.takeWhile Char.isDigit, x.isDigit = true := htake ▸ hdigits _
  unfold splitNumber
  rw [htake]
  split
  -- a point, and the digits behind it
  · exact ⟨.point hwhole (hdigits _), head?_dropWhile, fun hnone => by simp at hnone⟩
  -- no point comes behind the digits
  · next hnone =>
    refine ⟨.whole hwhole, head?_dropWhile, fun _ hhead => ?_⟩
    obtain ⟨others, hothers⟩ := List.head?_eq_some_iff.mp hhead
    exact hnone others hothers

namespace Lexeme

variable {before : List Char} {c : Char} {cs : List Char}

/-- **The lexeme that is read** is cut out of the text, if no name is cut in two where it begins. -/
theorem cutOut_readAt (hblank : Text.isBlank c = false)
    (hbefore : ∀ x ∈ before.getLast?, isNameChar x = true → isNameChar c = false) :
    CutOut before (readAt c cs).1.spelling (readAt c cs).2 (readAt c cs).1 := by
  unfold readAt
  split
  · exact .symbol rfl
  · next hsymbol =>
    split
    · next hdigit =>
      obtain ⟨hnumeral, hend, hpoint⟩ := splitNumber_cut cs hdigit
      simp only [spelling, String.toList_ofList]
      exact .number hnumeral hend hpoint
    · next hdigit =>
      split
      · next hname =>
        simp only [spelling, String.toList_ofList]
        refine .name (List.cons_ne_nil _ _) ?_ ?_ head?_dropWhile
        · intro x hx
          rcases List.mem_cons.mp hx with rfl | hx
          · exact hname
          · exact List.mem_takeWhile_imp hx
        · intro x hx
          rw [← Bool.not_eq_true]
          intro hx'
          rw [hbefore x hx hx'] at hname
          cases hname
      · next hname =>
        exact .unexpected rfl hsymbol (Bool.not_eq_true _ ▸ hdigit) (Bool.not_eq_true _ ▸ hname)
          hblank

/-- No name is cut in two where a lexeme ends. -/
theorem CutOut.apart {part after : List Char} {l : Lexeme} (h : CutOut before part after l) :
    ∀ x ∈ (before ++ part).getLast?, isNameChar x = true →
      ∀ y ∈ after.head?, isNameChar y = false := by
  intro x hx hname
  have hmem : x ∈ part := by
    rw [List.getLast?_append, List.getLast?_eq_some_getLast h.part_ne_nil, Option.some_or] at hx
    exact Option.mem_some.mp hx ▸ List.getLast_mem h.part_ne_nil
  cases h with
  | name _ _ _ hafter => exact hafter
  -- of the others none has a character of names
  | @symbol s hpart =>
    rw [hpart, List.mem_singleton] at hmem
    have hnone := ofChar?_eq_none (.inr hname)
    rw [hmem, Symbol.ofChar?_char] at hnone
    cases hnone
  | number hnumeral _ _ =>
    rcases hnumeral.isDigit_or_point x hmem with hdigit | rfl
    · rw [isDigit_of_isNameChar hname] at hdigit
      cases hdigit
    · exact absurd hname (by decide)
  | unexpected hpart _ _ hnone _ =>
    rw [hpart, List.mem_singleton] at hmem
    rw [← hmem, hname] at hnone
    cases hnone

end Lexeme

/-- **The token is a part of the text**, where its span says. -/
def Token.CutFrom (s : String) (t : Token) : Prop :=
  ∃ before part after, t.span.Cuts s before part after ∧ t.lexeme.CutOut before part after

/-! ### From token to token -/

namespace Cursor

/-- **What has been passed** where a cursor stands: the text is that and what is left, the offset
counts its bytes, and no name is cut in two here. -/
structure Passed (k : Cursor) (s : String) (before : List Char) : Prop where
  text : s.toList = before ++ k.rest
  offset : k.offset = byteLength before
  apart : ∀ x ∈ before.getLast?, isNameChar x = true → ∀ y ∈ k.rest.head?, isNameChar y = false

theorem passed_ofText (s : String) : (ofText s).Passed s [] := ⟨rfl, rfl, nofun⟩

variable {k : Cursor} {s : String} {before : List Char}

/-- The blanks that stand here are passed. -/
theorem Passed.skipBlanks (h : k.Passed s before) :
    k.skipBlanks.Passed s (before ++ k.rest.takeWhile Text.isBlank) := by
  refine ⟨?_, ?_, ?_⟩
  · change s.toList = _ ++ k.rest.dropWhile Text.isBlank
    rw [List.append_assoc, List.takeWhile_append_dropWhile, h.text]
  · rw [byteLength_append, ← h.offset]
    rfl
  · intro x hx hname y hy
    rcases List.eq_nil_or_concat (k.rest.takeWhile Text.isBlank) with hnone | ⟨blanks, b, hb⟩
    -- no blank: this is where the cursor stood
    · have hrest : k.skipBlanks.rest = k.rest := by
        have hwhole := List.takeWhile_append_dropWhile (p := Text.isBlank) (l := k.rest)
        rwa [hnone] at hwhole
      rw [hnone, List.append_nil] at hx
      rw [hrest] at hy
      exact h.apart x hx hname y hy
    -- the last blank is no part of a name
    · have hblank : Text.isBlank b = true :=
        List.mem_takeWhile_imp (p := Text.isBlank) (l := k.rest) (by simp [hb])
      have hxb : x = b := by
        rw [hb] at hx
        simpa using hx.symm
      rw [hxb] at hname
      rw [isBlank_of_isNameChar hname] at hblank
      cases hblank

/-- Nothing but blanks lies between where a cursor stands and where the next token begins. -/
theorem Passed.blankUpTo (h : k.Passed s before) {a b : Span} (ha : a.stop = k.offset)
    (hb : b.start = k.skipBlanks.offset) : Span.BlankUpTo s a b := by
  rw [Span.BlankUpTo, ha, hb]
  refine ⟨Nat.le_add_right _ _, before, _, _, ⟨h.skipBlanks.text, h.offset, ?_⟩, ?_⟩
  · exact h.skipBlanks.offset
  · exact fun c hc => List.mem_takeWhile_imp hc

/-- **The next token is a part of the text**, which is passed with it. -/
theorem Passed.next (h : k.Passed s before) {c : Char} {cs : List Char}
    (hcons : k.skipBlanks.rest = c :: cs) :
    k.next.1.CutFrom s ∧ ∃ before', k.next.2.Passed s before' := by
  have hskip := h.skipBlanks
  have hblank : Text.isBlank c = false := by
    have hhead : c ∈ (k.rest.dropWhile Text.isBlank).head? := by
      change c ∈ k.skipBlanks.rest.head?
      rw [hcons]
      rfl
    exact head?_dropWhile c hhead
  have hcut : (Lexeme.readAt c cs).1.CutOut (before ++ k.rest.takeWhile Text.isBlank)
      (Lexeme.readAt c cs).1.spelling (Lexeme.readAt c cs).2 :=
    Lexeme.cutOut_readAt hblank fun x hx hname =>
      hskip.apart x hx hname c (by rw [hcons]; rfl)
  have htext := hskip.text
  rw [hcons, ← Lexeme.spelling_append_rest c cs, ← List.append_assoc] at htext
  have hstop : k.skipBlanks.offset + byteLength (Lexeme.readAt c cs).1.spelling =
      byteLength (before ++ k.rest.takeWhile Text.isBlank ++ (Lexeme.readAt c cs).1.spelling) := by
    rw [byteLength_append, ← hskip.offset]
  simp only [Cursor.next, hcons]
  exact ⟨⟨_, _, _, ⟨htext, hskip.offset, hstop⟩, hcut⟩, _, htext, hstop, hcut.apart⟩

/-- **The tokens from a place on** are parts of the text, up to its end, and nothing but blanks lies
between them. -/
theorem exists_tokens_placed (h : k.Passed s before) {a : Span} (ha : a.stop = k.offset) :
    ∃ ts, k.tokens = ts ++ [.atEnd s.utf8ByteSize] ∧ (∀ t ∈ ts, t.CutFrom s) ∧
      List.IsChain (Span.BlankUpTo s) (a :: k.tokens.map Token.span) := by
  -- on the tokens that are read; the span before the next one is wherever the last has ended
  induction k using tokens.induct generalizing before a with
  | case1 k hnil =>
    have hskip := h.skipBlanks
    have hend : k.skipBlanks.offset = s.utf8ByteSize := by
      rw [hskip.offset, ← byteLength_toList, hskip.text, hnil, List.append_nil]
    have hnext : k.next.1 = .atEnd s.utf8ByteSize := by
      simp only [Cursor.next, hnil, hend]
    rw [tokens_of_nil hnil, hnext]
    refine ⟨[], rfl, fun t ht => absurd ht List.not_mem_nil, ?_⟩
    rw [List.map_singleton, List.isChain_cons_cons]
    exact ⟨h.blankUpTo ha hend.symm, .singleton _⟩
  | case2 k c cs hcons ih =>
    obtain ⟨hcut, before', hnext⟩ := h.next hcons
    have hstop : k.next.1.span.stop = k.next.2.offset := by simp only [Cursor.next, hcons]
    obtain ⟨ts, htokens, hts, hchain⟩ := ih hnext hstop
    rw [tokens_of_cons hcons]
    refine ⟨k.next.1 :: ts, ?_, ?_, ?_⟩
    · rw [htokens, List.cons_append]
    · intro t ht
      rcases List.mem_cons.mp ht with rfl | ht
      · exact hcut
      · exact hts t ht
    · rw [List.map_cons, List.isChain_cons_cons]
      exact ⟨h.blankUpTo ha (by simp [Cursor.next, hcons]), hchain⟩

end Cursor

/-- The tokens of a text are parts of it, up to its end. -/
theorem exists_scan_placed (s : String) :
    ∃ ts, scan s = ts ++ [.atEnd s.utf8ByteSize] ∧ (∀ t ∈ ts, t.CutFrom s) ∧
      List.IsChain (Span.BlankUpTo s) (.point 0 :: (scan s).map Token.span) :=
  Cursor.exists_tokens_placed (Cursor.passed_ofText s) rfl

/-- **The tokens of a text account for all of it.**  The last one is its end, an empty span at its
length in bytes, and no other is.  Each other token is a part of the text with one byte at least, as
long as it can be where it begins, and its span begins and ends between characters.  Nothing but
blanks lies before the first token, between one and the next, and behind the last. -/
theorem scan_accounts (s : String) :
    ∃ ts, scan s = ts ++ [.atEnd s.utf8ByteSize] ∧
      (∀ t ∈ ts, t.isEnd = false ∧ t.span.start < t.span.stop ∧
        IsBoundary s t.span.start ∧ IsBoundary s t.span.stop ∧
        ∃ before part after, t.span.Cuts s before part after ∧
          t.lexeme.CutOut before part after) ∧
      List.IsChain (Span.BlankUpTo s) (.point 0 :: (scan s).map Token.span) := by
  obtain ⟨ts, hscan, hts, hchain⟩ := exists_scan_placed s
  refine ⟨ts, hscan, ?_, hchain⟩
  intro ⟨l, a⟩ ht
  obtain ⟨before, part, after, hcuts, hcut⟩ := hts _ ht
  have hlength := byteLength_pos hcut.part_ne_nil
  have hstop := hcuts.stop
  rw [byteLength_append, ← hcuts.start] at hstop
  refine ⟨?_, by omega, hcuts.isBoundary.1, hcuts.isBoundary.2, before, part, after, hcuts, hcut⟩
  cases hcut with
  | symbol | number | name | unexpected => rfl

end Abacus
