import Abacus.Proofs.Grammar.Parse

/-!
# Readers with fewer levels

Levels do not change what is read, only whether it is read to the end.  Readers with fewer levels
answer what readers with more of them answer, or else that the levels do not suffice.  As there are
enough levels for any one derivation, a text that is derived is parsed or is too deep.

## Main definitions

* `Reader.OrTooDeep`: the same result, but for a want of levels

## Main results

* `Readers.orTooDeep_of_le`: fewer levels
* `Grammar.parse_or_tooDeep_of_derives`: texts that are derived
-/

namespace Abacus

namespace Reader

variable {α β : Type}

/-- **The first result is the second**, unless levels are wanting for it. -/
def OrTooDeep (r r' : Except ParseError α) : Prop :=
  r = r' ∨ ∃ span, r = .error (.tooDeep maxNesting span)

namespace OrTooDeep

theorem refl (r : Except ParseError α) : OrTooDeep r r := .inl rfl

theorem tooDeep (ts : List Token) (r : Except ParseError α) :
    OrTooDeep (Reader.tooDeep ts) r := .inr ⟨_, rfl⟩

theorem trans {r r' r'' : Except ParseError α} (h : OrTooDeep r r') (h' : OrTooDeep r' r'') :
    OrTooDeep r r'' := by
  rcases h with rfl | hdeep
  · exact h'
  · exact .inr hdeep

theorem bind {r r' : Except ParseError α} {next next' : α → Except ParseError β}
    (h : OrTooDeep r r') (hnext : ∀ a, OrTooDeep (next a) (next' a)) :
    OrTooDeep (r >>= next) (r' >>= next') := by
  rcases h with rfl | ⟨span, rfl⟩
  · cases r with
    | error e => exact refl _
    | ok a => exact hnext a
  · exact .inr ⟨span, rfl⟩

end OrTooDeep

section

variable {expression expression' : Reader Expr}
  (h : ∀ ts, OrTooDeep (expression ts) (expression' ts))

include h

theorem argumentList_orTooDeep (more : Nat) (ts : List Token) :
    OrTooDeep (argumentList expression more ts) (argumentList expression' more ts) := by
  induction more generalizing ts with
  | zero => exact .refl _
  | succ more ih =>
    rw [argumentList, argumentList]
    apply (h ts).bind
    rintro ⟨argument, ts'⟩
    dsimp only
    split
    · exact .refl _
    · next ts'' =>
      apply (ih ts'').bind
      intro rest
      exact .refl _
    · exact .refl _

theorem arguments_orTooDeep (ts : List Token) :
    OrTooDeep (arguments expression ts) (arguments expression' ts) := by
  unfold arguments
  split
  · exact .refl _
  · exact argumentList_orTooDeep h _ _

theorem primary_orTooDeep (ts : List Token) :
    OrTooDeep (primary expression ts) (primary expression' ts) := by
  unfold primary
  split
  · exact .refl _
  · apply (arguments_orTooDeep h _).bind
    intro arguments
    exact .refl _
  · exact .refl _
  · apply (h _).bind
    intro inner
    exact .refl _
  · exact .refl _

end

end Reader

namespace Readers

open Reader

/-- Readers that answer the same, but for a want of levels. -/
structure OrTooDeep (readers readers' : Readers) : Prop where
  factor (ts : List Token) : Reader.OrTooDeep (readers.factor ts) (readers'.factor ts)
  extend (least : Precedence) (left : Expr) (ts : List Token) :
    Reader.OrTooDeep (readers.extend least left ts) (readers'.extend least left ts)

variable {readers readers' below below' : Readers}

theorem OrTooDeep.chain (h : readers.OrTooDeep readers') (least : Precedence) (ts : List Token) :
    Reader.OrTooDeep (readers.chain least ts) (readers'.chain least ts) := by
  apply (h.factor ts).bind
  rintro ⟨left, ts'⟩
  exact h.extend least left ts'

theorem ground_orTooDeep (below : Readers) : ground.OrTooDeep below.above := by
  constructor
  · intro ts
    exact .tooDeep ts _
  · intro least left ts
    simp only [ground, above]
    cases chainOperator? least ts with
    | none => exact .refl _
    | some op => exact .tooDeep ts _

/-- One level more for both. -/
theorem OrTooDeep.above (h : below.OrTooDeep below') : below.above.OrTooDeep below'.above := by
  constructor
  · intro ts
    simp only [Readers.above]
    split
    · exact h.factor _
    · apply (h.factor _).bind
      intro operand
      exact .refl _
    · apply (primary_orTooDeep (h.chain .term) _).bind
      rintro ⟨base, ts'⟩
      dsimp only
      split
      · apply (h.factor _).bind
        intro exponent
        exact .refl _
      · exact .refl _
  · intro least left ts
    simp only [Readers.above]
    cases chainOperator? least ts with
    | none => exact .refl _
    | some op =>
      apply (h.chain _ _).bind
      rintro ⟨right, ts'⟩
      exact h.extend _ _ _

theorem orTooDeep_succ (n : Nat) : (ofNat n).OrTooDeep (ofNat (n + 1)) := by
  induction n with
  | zero => exact ground_orTooDeep ground
  | succ n ih => exact ih.above

/-- **Fewer levels** change nothing but whether they suffice. -/
theorem orTooDeep_of_le {n n' : Nat} (h : n ≤ n') (ts : List Token) :
    Reader.OrTooDeep ((ofNat n).expression ts) ((ofNat n').expression ts) := by
  induction h with
  | refl => exact .refl _
  | step _ ih => exact ih.trans ((orTooDeep_succ _).chain .term ts)

end Readers

namespace Grammar

/-- **A text that is derived** is parsed as the tree of its derivation, or is too deep. -/
theorem parse_or_tooDeep_of_derives {s : String} {d : Expression} (h : Derives s d) :
    parse s = .ok d.tree ∨ ∃ span, parse s = .error (.tooDeep maxNesting span) := by
  -- Readers with the levels of the derivation, or with those there are if they are more.
  obtain ⟨rest, hread, hend⟩ := h.read (Nat.le_max_right maxNesting d.levels)
  have hdeep := Readers.orTooDeep_of_le (Nat.le_max_left maxNesting d.levels) (scan s)
  rw [hread] at hdeep
  rcases hdeep with hsame | ⟨span, hspan⟩
  · left
    rw [parse, hsame]
    exact if_pos hend
  · right
    refine ⟨span, ?_⟩
    rw [parse, hspan]
    rfl

end Grammar

end Abacus
