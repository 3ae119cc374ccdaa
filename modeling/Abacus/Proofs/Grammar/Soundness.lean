import Abacus.Proofs.Grammar.Spelling

/-!
# What is read is derived

Every tree a reader answers is the tree of a derivation of what it has taken, and the derivation
takes no more levels than the reader has.  The proof is by induction on the levels, as the readers
are defined.  The rest of a chain is the delicate part: one reader continues sums and products
alike, so that what it has read is a tail of products and then a tail of sums.

## Main definitions

* `ReadersSound`: what is said of the readers that have a number of levels

## Main results

* `readersSound`: it holds of all of them
-/

namespace Abacus.Grammar

/-- No product goes on where no operator of products stands. -/
theorem ProductTail.eq_nil_of_spells {d : ProductTail} {ts rest : List Token} {ls : List Lexeme}
    (h : Spells ts (d.lexemes ++ ls) rest) (hend : Reader.chainOperator? .factor ts = none) :
    d = .nil := by
  cases d with
  | nil => rfl
  | cons op isProduct operand others =>
    obtain ⟨span, ts', rfl, -⟩ := spells_cons.mp h
    rw [Reader.chainOperator?_factor.mpr ⟨⟨span, ts', rfl⟩, isProduct⟩] at hend
    cases hend

/-! ### Primaries -/

/-- Whatever the reader answers is the tree of an expression derived within the levels. -/
def ExpressionSound (n : Nat) (expression : Reader Expr) : Prop :=
  ∀ ⦃ts e rest⦄, expression ts = .ok (e, rest) →
    ∃ d : Expression, Spells ts d.lexemes rest ∧ d.tree = e ∧ d.levels ≤ n

section

variable {n : Nat} {expression : Reader Expr} {ts rest : List Token}

theorem argumentList_sound (sound : ExpressionSound n expression) {more : Nat} {es : List Expr}
    (h : Reader.argumentList expression more ts = .ok (es, rest)) :
    ∃ (first : Expression) (others : ArgumentTail),
      Spells ts (first.lexemes ++ (others.lexemes ++ [.symbol .rightParen])) rest ∧
        first.tree :: others.trees = es ∧ first.levels ≤ n ∧ others.levels ≤ n := by
  -- Induction on the number of arguments that may still come.
  induction more generalizing ts es with
  | zero => cases h
  | succ more ih =>
    rw [Reader.argumentList] at h
    obtain ⟨⟨argument, ts'⟩, hargument, h⟩ := Reader.bind_eq_ok_iff.mp h
    obtain ⟨d, hd, rfl, hlevels⟩ := sound hargument
    dsimp only at h
    split at h
    -- the closing parenthesis
    · cases h
      exact ⟨d, .nil, hd.append ((Spells.refl rest).cons _ _), rfl, hlevels, Nat.zero_le n⟩
    -- a comma, and an argument after it
    · obtain ⟨⟨others, ts''⟩, hothers, h⟩ := Reader.bind_eq_ok_iff.mp h
      cases h
      obtain ⟨first, tail, hspells, rfl, hfirst, htail⟩ := ih hothers
      refine ⟨d, .cons first tail, ?_, rfl, hlevels, ?_⟩
      · rw [ArgumentTail.lexemes, List.cons_append, List.append_assoc]
        exact hd.append (hspells.cons _ _)
      · exact Nat.max_le.mpr ⟨hfirst, htail⟩
    · cases h

theorem arguments_sound (sound : ExpressionSound n expression) {es : List Expr}
    (h : Reader.arguments expression ts = .ok (es, rest)) :
    ∃ d : Arguments, Spells ts (d.lexemes ++ [.symbol .rightParen]) rest ∧
      d.trees = es ∧ d.levels ≤ n := by
  unfold Reader.arguments at h
  split at h
  -- nothing between the parentheses
  · cases h
    exact ⟨.empty, (Spells.refl rest).cons _ _, rfl, Nat.zero_le n⟩
  · obtain ⟨first, others, hspells, htrees, hfirst, hothers⟩ := argumentList_sound sound h
    refine ⟨.list first others, ?_, htrees, Nat.max_le.mpr ⟨hfirst, hothers⟩⟩
    rwa [Arguments.lexemes, List.append_assoc]

theorem primary_sound (sound : ExpressionSound n expression) {e : Expr}
    (h : Reader.primary expression ts = .ok (e, rest)) :
    ∃ d : Primary, Spells ts d.lexemes rest ∧ d.tree = e ∧ d.levels ≤ n := by
  unfold Reader.primary at h
  split at h
  -- a number
  · next digits span ts' =>
    split at h
    · next value hvalue =>
      cases h
      refine ⟨.number digits, (Spells.refl rest).cons _ _, ?_, Nat.zero_le n⟩
      rw [Primary.tree, numberValue, hvalue, Option.getD_some]
    · cases h
  -- a name and an opening parenthesis
  · next name _ _ ts' =>
    obtain ⟨⟨es, ts''⟩, harguments, h⟩ := Reader.bind_eq_ok_iff.mp h
    cases h
    obtain ⟨d, hspells, rfl, hlevels⟩ := arguments_sound sound harguments
    exact ⟨.call name d, (hspells.cons _ _).cons _ _, rfl, hlevels⟩
  -- a name by itself
  · next name _ ts' _ =>
    cases h
    exact ⟨.name name, (Spells.refl rest).cons _ _, rfl, Nat.zero_le n⟩
  -- an opening parenthesis, and later the closing one
  · obtain ⟨⟨inner, ts'⟩, hinner, h⟩ := Reader.bind_eq_ok_iff.mp h
    obtain ⟨d, hd, rfl, hlevels⟩ := sound hinner
    dsimp only at h
    split at h
    · cases h
      exact ⟨.group d, (hd.append ((Spells.refl rest).cons _ _)).cons _ _, rfl, hlevels⟩
    · cases h
  -- no expression begins with the token in front
  · cases h

end

/-! ### Factors and chains -/

/-- **The readers answer what is derived** within a number of levels.  After products no operator of
products is left, so that a sum's later terms end where a product ends. -/
structure ReadersSound (n : Nat) (readers : Readers) : Prop where
  factor ⦃ts e rest⦄ : readers.factor ts = .ok (e, rest) →
    ∃ d : Factor, Spells ts d.lexemes rest ∧ d.tree = e ∧ d.levels ≤ n
  power (left : Expr) (ts : List Token) : readers.extend .exponent left ts = .ok (left, ts)
  products ⦃left ts e rest⦄ : readers.extend .factor left ts = .ok (e, rest) →
    Reader.chainOperator? .factor rest = none ∧
      ∃ d : ProductTail, Spells ts d.lexemes rest ∧ d.tree left = e ∧
        chainLevels 0 d.operandLevels ≤ n
  sums ⦃left ts e rest⦄ : readers.extend .term left ts = .ok (e, rest) →
    ∃ (d : ProductTail) (d' : SumTail), Spells ts (d.lexemes ++ d'.lexemes) rest ∧
      d'.tree (d.tree left) = e ∧ chainLevels 0 (d.operandLevels ++ d'.operandLevels) ≤ n

namespace ReadersSound

variable {n : Nat} {readers : Readers} (sound : ReadersSound n readers) {ts rest : List Token}
  {e : Expr}

include sound

/-- A chain begins with a factor, and is extended from there. -/
theorem chain {least : Precedence} (h : readers.chain least ts = .ok (e, rest)) :
    ∃ (d : Factor) (middle : List Token), Spells ts d.lexemes middle ∧ d.levels ≤ n ∧
      readers.extend least d.tree middle = .ok (e, rest) := by
  obtain ⟨⟨left, middle⟩, hfactor, hrest⟩ := Reader.bind_eq_ok_iff.mp h
  obtain ⟨d, hspells, rfl, hlevels⟩ := sound.factor hfactor
  exact ⟨d, middle, hspells, hlevels, hrest⟩

theorem expression : ExpressionSound n readers.expression := by
  intro ts e rest h
  obtain ⟨first, middle, hfirst, hlevels, hrest⟩ := sound.chain h
  obtain ⟨products, sums, htail, rfl, hchain⟩ := sound.sums hrest
  refine ⟨.chain (.chain first products) sums, ?_, rfl, ?_⟩
  · rw [Expression.lexemes, Term.lexemes, List.append_assoc]
    exact hfirst.append htail
  · exact Nat.max_le.mpr ⟨hlevels, hchain⟩

theorem term (h : readers.chain .factor ts = .ok (e, rest)) :
    Reader.chainOperator? .factor rest = none ∧
      ∃ d : Term, Spells ts d.lexemes rest ∧ d.tree = e ∧ d.levels ≤ n := by
  obtain ⟨first, middle, hfirst, hlevels, hrest⟩ := sound.chain h
  obtain ⟨hend, products, htail, rfl, hchain⟩ := sound.products hrest
  exact ⟨hend, .chain first products, hfirst.append htail, rfl, Nat.max_le.mpr ⟨hlevels, hchain⟩⟩

/-- Behind an operator of products stands one factor. -/
theorem factor_of_chain (h : readers.chain .exponent ts = .ok (e, rest)) :
    ∃ d : Factor, Spells ts d.lexemes rest ∧ d.tree = e ∧ d.levels ≤ n := by
  obtain ⟨d, middle, hspells, hlevels, hrest⟩ := sound.chain h
  rw [sound.power] at hrest
  cases hrest
  exact ⟨d, hspells, rfl, hlevels⟩

end ReadersSound

theorem readersSound_ground : ReadersSound 0 .ground where
  factor ts e rest h := by cases h
  power left ts := by
    simp only [Readers.ground, Reader.chainOperator?_exponent]
    rfl
  products left ts e rest h := by
    simp only [Readers.ground] at h
    split at h
    · cases h
    · next hend =>
      cases h
      exact ⟨hend, .nil, Spells.refl ts, rfl, Nat.zero_le 0⟩
  sums left ts e rest h := by
    simp only [Readers.ground] at h
    split at h
    · cases h
    · cases h
      exact ⟨.nil, .nil, Spells.refl ts, rfl, Nat.zero_le 0⟩

namespace ReadersSound

variable {n : Nat} {below : Readers} (sound : ReadersSound n below) {ts rest : List Token}
  {left e : Expr}

include sound

theorem factor_above (h : below.above.factor ts = .ok (e, rest)) :
    ∃ d : Factor, Spells ts d.lexemes rest ∧ d.tree = e ∧ d.levels ≤ n + 1 := by
  simp only [Readers.above] at h
  split at h
  -- a plus sign, of which nothing is left in the tree
  · obtain ⟨d, hd, rfl, hlevels⟩ := sound.factor h
    exact ⟨.plus d, hd.cons _ _, rfl, Nat.succ_le_succ hlevels⟩
  -- a minus sign
  · obtain ⟨⟨operand, ts'⟩, hoperand, h⟩ := Reader.bind_eq_ok_iff.mp h
    cases h
    obtain ⟨d, hd, rfl, hlevels⟩ := sound.factor hoperand
    exact ⟨.minus d, hd.cons _ _, rfl, Nat.succ_le_succ hlevels⟩
  -- a primary, which may be the base of a power
  · obtain ⟨⟨base, ts'⟩, hbase, h⟩ := Reader.bind_eq_ok_iff.mp h
    obtain ⟨p, hp, rfl, hlevels⟩ := primary_sound sound.expression hbase
    dsimp only at h
    split at h
    · obtain ⟨⟨exponent, ts''⟩, hexponent, h⟩ := Reader.bind_eq_ok_iff.mp h
      cases h
      obtain ⟨d, hd, rfl, hlevels'⟩ := sound.factor hexponent
      exact ⟨.power p d, hp.append (hd.cons _ _), rfl,
        Nat.succ_le_succ (Nat.max_le.mpr ⟨hlevels, hlevels'⟩)⟩
    · cases h
      exact ⟨.primary p, hp, rfl, Nat.succ_le_succ hlevels⟩

theorem products_above (h : below.above.extend .factor left ts = .ok (e, rest)) :
    Reader.chainOperator? .factor rest = none ∧
      ∃ d : ProductTail, Spells ts d.lexemes rest ∧ d.tree left = e ∧
        chainLevels 0 d.operandLevels ≤ n + 1 := by
  simp only [Readers.above] at h
  split at h
  · next op hop =>
    obtain ⟨⟨span, ts, rfl⟩, hproduct⟩ := Reader.chainOperator?_factor.mp hop
    obtain ⟨⟨right, ts'⟩, hright, h⟩ := Reader.bind_eq_ok_iff.mp h
    rw [hproduct] at hright
    obtain ⟨operand, hoperand, rfl, hlevels⟩ := sound.factor_of_chain hright
    obtain ⟨hend, others, hothers, rfl, hmore⟩ := sound.products h
    refine ⟨hend, .cons op hproduct operand others, (hoperand.append hothers).cons _ _, rfl, ?_⟩
    exact chainLevels_cons_le_iff.mpr ⟨hlevels, hmore⟩
  · next hend =>
    cases h
    exact ⟨hend, .nil, Spells.refl ts, rfl, Nat.zero_le _⟩

theorem sums_above (h : below.above.extend .term left ts = .ok (e, rest)) :
    ∃ (d : ProductTail) (d' : SumTail), Spells ts (d.lexemes ++ d'.lexemes) rest ∧
      d'.tree (d.tree left) = e ∧
        chainLevels 0 (d.operandLevels ++ d'.operandLevels) ≤ n + 1 := by
  simp only [Readers.above] at h
  split at h
  · next op hop =>
    obtain ⟨⟨span, ts, rfl⟩, hsum | hproduct⟩ := Reader.chainOperator?_term.mp hop
    -- a sum: its term has taken all operators of products, so none comes before the next sum
    · obtain ⟨⟨right, ts'⟩, hright, h⟩ := Reader.bind_eq_ok_iff.mp h
      rw [hsum] at hright
      obtain ⟨hend, operand, hoperand, rfl, hlevels⟩ := sound.term hright
      obtain ⟨products, others, hothers, rfl, hmore⟩ := sound.sums h
      obtain rfl := products.eq_nil_of_spells hothers hend
      refine ⟨.nil, .cons op hsum operand others, (hoperand.append hothers).cons _ _, rfl, ?_⟩
      exact chainLevels_cons_le_iff.mpr ⟨hlevels, hmore⟩
    -- a product: it comes first in a chain that goes on as before
    · obtain ⟨⟨right, ts'⟩, hright, h⟩ := Reader.bind_eq_ok_iff.mp h
      rw [hproduct] at hright
      obtain ⟨operand, hoperand, rfl, hlevels⟩ := sound.factor_of_chain hright
      obtain ⟨products, others, hothers, rfl, hmore⟩ := sound.sums h
      refine ⟨.cons op hproduct operand products, others, ?_, rfl, ?_⟩
      · rw [ProductTail.lexemes, List.cons_append, List.append_assoc]
        exact (hoperand.append hothers).cons _ _
      · exact chainLevels_cons_le_iff.mpr ⟨hlevels, hmore⟩
  · cases h
    exact ⟨.nil, .nil, Spells.refl ts, rfl, Nat.zero_le _⟩

end ReadersSound

/-- **Readers answer what is derived**, however many levels they have. -/
theorem readersSound (n : Nat) : ReadersSound n (.ofNat n) := by
  induction n with
  | zero => exact readersSound_ground
  | succ n sound =>
    refine ⟨fun _ _ _ => sound.factor_above, fun left ts => ?_, fun _ _ _ _ => sound.products_above,
      fun _ _ _ _ => sound.sums_above⟩
    simp only [Readers.ofNat, Readers.above, Reader.chainOperator?_exponent]
    rfl

end Abacus.Grammar
