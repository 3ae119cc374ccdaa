import Abacus.Proofs.Grammar.Parse
import Mathlib.Order.Bounds.Defs
import Mathlib.Tactic.Ring

/-!
# How high parsed trees are

The limit on nesting is a limit on the levels taken while a text is read.  It bounds a path in the
tree as long as steps into the left operand of an operator are not counted: the levels a left
operand has taken are free again when its operator is read.  So a tree can be higher than the
limit.  How much higher is computed here, and a text is given whose tree is as high as possible.

## Main definitions

* `Expr.height`: nodes on the longest path from the root
* `Expr.countedHeight`: the same when no node counts on the way to its left operand
* `Expr.LeftWithin`: left operands that are low enough
* `tallest`: the bound on the height, plus one

## Main results

* `height_of_parse`: when the height is within the limit, and what always is
* `isGreatest_height`: the greatest height there is
-/

namespace Abacus

namespace Expr

mutual

/-- The nodes on the longest path from the root to a leaf. -/
def height : Expr → Nat
  | num _ | var _ => 1
  | group inner => height inner + 1
  | neg operand | trailingNeg operand => height operand + 1
  | binary _ left right => max (height left) (height right) + 1
  | call _ arguments => heightAll arguments + 1

def heightAll : List Expr → Nat
  | [] => 0
  | argument :: rest => max (height argument) (heightAll rest)

end

mutual

/-- The height when a node is not counted on a path that goes on to its left operand. -/
def countedHeight : Expr → Nat
  | num _ | var _ => 1
  | group inner => countedHeight inner + 1
  | neg operand | trailingNeg operand => countedHeight operand + 1
  | binary _ left right => max (countedHeight left) (countedHeight right + 1)
  | call _ arguments => countedHeightAll arguments + 1

def countedHeightAll : List Expr → Nat
  | [] => 0
  | argument :: rest => max (countedHeight argument) (countedHeightAll rest)

end

mutual

/-- Every left operand is lower than the room there is for it, when the root has room for so many
nodes on a path.  Left operands inside another one need not be looked at. -/
def LeftWithin : Nat → Expr → Prop
  | _, num _ | _, var _ => True
  | room, group inner => LeftWithin (room - 1) inner
  | room, neg operand | room, trailingNeg operand => LeftWithin (room - 1) operand
  | room, binary _ left right => height left < room ∧ LeftWithin (room - 1) right
  | room, call _ arguments => LeftWithinAll (room - 1) arguments

def LeftWithinAll : Nat → List Expr → Prop
  | _, [] => True
  | room, argument :: rest => LeftWithin room argument ∧ LeftWithinAll room rest

end

mutual

/-- Within a bound on the counted height, only left operands can make a tree too high. -/
theorem height_le_iff_leftWithin (e : Expr) {room : Nat} (h : e.countedHeight ≤ room) :
    e.height ≤ room ↔ e.LeftWithin room := by
  match e with
  | num _ | var _ => exact iff_of_true h trivial
  | group inner | neg inner | trailingNeg inner =>
    rw [countedHeight] at h
    have ih : inner.height ≤ room - 1 ↔ inner.LeftWithin (room - 1) :=
      height_le_iff_leftWithin inner (by omega)
    rw [height, LeftWithin, ← ih]
    omega
  | binary _ left right =>
    rw [countedHeight] at h
    -- The left operand is in the condition itself; a path to the right has one node less to go.
    have ih : right.height ≤ room - 1 ↔ right.LeftWithin (room - 1) :=
      height_le_iff_leftWithin right (by omega)
    rw [height, LeftWithin, ← ih]
    omega
  | call _ arguments =>
    rw [countedHeight] at h
    have ih : heightAll arguments ≤ room - 1 ↔ LeftWithinAll (room - 1) arguments :=
      heightAll_le_iff_leftWithinAll arguments (by omega)
    rw [height, LeftWithin, ← ih]
    omega

theorem heightAll_le_iff_leftWithinAll (es : List Expr) {room : Nat}
    (h : countedHeightAll es ≤ room) : heightAll es ≤ room ↔ LeftWithinAll room es := by
  match es with
  | [] => exact iff_of_true (Nat.zero_le room) trivial
  | e :: rest =>
    obtain ⟨he, hrest⟩ := Nat.max_le.mp h
    rw [heightAll, LeftWithinAll, Nat.max_le, height_le_iff_leftWithin e he,
      heightAll_le_iff_leftWithinAll rest hrest]

end

end Expr

namespace Grammar

/-! ### What the limit bounds -/

mutual

/-- **Levels bound the counted height.** -/
theorem Expression.countedHeight_le (d : Expression) : d.tree.countedHeight ≤ d.levels := by
  match d with
  | .chain (.chain first products) sums =>
    have hfirst := first.countedHeight_le
    have hterm := products.countedHeight_le 0 first.tree
    have hsum := sums.countedHeight_le (0 + products.operandLevels.length)
      (products.tree first.tree)
    rw [Expression.levels, chainLevels_append]
    simp only [Expression.tree, Term.tree]
    omega

theorem SumTail.countedHeight_le (d : SumTail) (before : Nat) (left : Expr) :
    (d.tree left).countedHeight ≤
      max left.countedHeight (chainLevels before d.operandLevels) := by
  match d with
  | .nil => exact Nat.le_max_left _ _
  | .cons op _ operand rest =>
    have hoperand := operand.countedHeight_le
    -- An operator adds a node for its right operand alone.
    have hrest := rest.countedHeight_le (before + 1) (.binary op left operand.tree)
    simp only [Expr.countedHeight] at hrest
    simp only [SumTail.tree, SumTail.operandLevels, chainLevels]
    omega

theorem Term.countedHeight_le (d : Term) : d.tree.countedHeight ≤ d.levels := by
  match d with
  | .chain first products =>
    have hfirst := first.countedHeight_le
    have hterm := products.countedHeight_le 0 first.tree
    simp only [Term.tree, Term.levels]
    omega

theorem ProductTail.countedHeight_le (d : ProductTail) (before : Nat) (left : Expr) :
    (d.tree left).countedHeight ≤
      max left.countedHeight (chainLevels before d.operandLevels) := by
  match d with
  | .nil => exact Nat.le_max_left _ _
  | .cons op _ operand rest =>
    have hoperand := operand.countedHeight_le
    -- An operator adds a node for its right operand alone.
    have hrest := rest.countedHeight_le (before + 1) (.binary op left operand.tree)
    simp only [Expr.countedHeight] at hrest
    simp only [ProductTail.tree, ProductTail.operandLevels, chainLevels]
    omega

theorem Factor.countedHeight_le (d : Factor) : d.tree.countedHeight ≤ d.levels := by
  match d with
  | .plus operand => exact Nat.le_succ_of_le operand.countedHeight_le
  | .minus operand => exact Nat.succ_le_succ operand.countedHeight_le
  | .primary p => exact p.countedHeight_le
  | .power base exponent =>
    have hbase := base.countedHeight_le
    have hexponent := exponent.countedHeight_le
    simp only [Factor.tree, Expr.countedHeight, Factor.levels]
    omega

theorem Primary.countedHeight_le (d : Primary) : d.tree.countedHeight ≤ d.levels + 1 := by
  match d with
  | .number _ | .name _ => exact Nat.le_refl 1
  | .call _ arguments => exact Nat.succ_le_succ arguments.countedHeight_le
  | .group inner => exact Nat.succ_le_succ inner.countedHeight_le

theorem Arguments.countedHeight_le (d : Arguments) :
    Expr.countedHeightAll d.trees ≤ d.levels := by
  match d with
  | .empty => exact Nat.le_refl 0
  | .list first rest =>
    have hfirst := first.countedHeight_le
    have hrest := rest.countedHeight_le
    simp only [Arguments.trees, Expr.countedHeightAll, Arguments.levels]
    omega

theorem ArgumentTail.countedHeight_le (d : ArgumentTail) :
    Expr.countedHeightAll d.trees ≤ d.levels := by
  match d with
  | .nil => exact Nat.le_refl 0
  | .cons argument rest =>
    have hargument := argument.countedHeight_le
    have hrest := rest.countedHeight_le
    simp only [ArgumentTail.trees, Expr.countedHeightAll, ArgumentTail.levels]
    omega

end

/-! ### The height itself

A factor that is read with `n + 1` levels may be a power whose base is an expression in
parentheses, read with `n` levels; a chain then adds a node for each level but one. -/

/-- One more than the height of the highest tree that can be read with so many levels. -/
def tallest : Nat → Nat
  | 0 => 0
  | n + 1 => tallest n + (n + 2)

theorem two_mul_tallest (n : Nat) : 2 * tallest n = n * (n + 3) := by
  induction n with
  | zero => rfl
  | succ n ih =>
    rw [tallest, Nat.mul_add, ih]
    ring

/-- With more levels the bound grows faster than the levels. -/
theorem tallest_add_le {m n : Nat} (h : m ≤ n) : tallest m + n ≤ tallest n + m := by
  induction n, h using Nat.le_induction with
  | base => exact Nat.le_refl _
  | succ n _ ih =>
    rw [tallest]
    omega

theorem tallest_add_lt {m n : Nat} (h : m < n) : tallest m + n < tallest n := by
  have hstep := tallest_add_le h
  rw [tallest] at hstep
  omega

theorem Factor.levels_pos (d : Factor) : 0 < d.levels := by
  cases d <;> exact Nat.succ_pos _

theorem Term.levels_pos (d : Term) : 0 < d.levels := by
  obtain ⟨first, products⟩ := d
  exact Nat.lt_of_lt_of_le first.levels_pos (Nat.le_max_left _ _)

theorem ProductTail.operandLevels_pos (d : ProductTail) : ∀ k ∈ d.operandLevels, 0 < k := by
  match d with
  | .nil => nofun
  | .cons _ _ operand rest =>
    intro k hk
    rcases List.mem_cons.mp hk with rfl | hk
    · exact operand.levels_pos
    · exact rest.operandLevels_pos k hk

theorem SumTail.operandLevels_pos (d : SumTail) : ∀ k ∈ d.operandLevels, 0 < k := by
  match d with
  | .nil => nofun
  | .cons _ _ operand rest =>
    intro k hk
    rcases List.mem_cons.mp hk with rfl | hk
    · exact operand.levels_pos
    · exact rest.operandLevels_pos k hk

/-- The last operator of a chain leaves a level for its operand. -/
theorem length_lt_of_chainLevels_le {before n : Nat} {ns : List Nat} (hpos : ∀ k ∈ ns, 0 < k)
    (h : chainLevels before ns ≤ n) (hbefore : before < n) : before + ns.length < n := by
  induction ns generalizing before with
  | nil => exact hbefore
  | cons operand ns ih =>
    obtain ⟨hoperand, hrest⟩ := Nat.max_le.mp h
    have hfirst := hpos operand List.mem_cons_self
    have hothers := ih (fun k hk => hpos k (List.mem_cons_of_mem operand hk)) hrest (by omega)
    rw [List.length_cons]
    omega

mutual

/-- **The height of what is read with a number of levels.** -/
theorem Expression.height_lt (d : Expression) {n : Nat} (h : d.levels ≤ n) :
    d.tree.height < tallest n := by
  match d with
  | .chain (.chain first products) sums =>
    obtain ⟨hfirst, hchain⟩ := Nat.max_le.mp h
    -- The chain has fewer operators than levels, and each adds a node to the first factor.
    have hpos : ∀ k ∈ products.operandLevels ++ sums.operandLevels, 0 < k := by
      intro k hk
      exact (List.mem_append.mp hk).elim (products.operandLevels_pos k) (sums.operandLevels_pos k)
    have hlength := length_lt_of_chainLevels_le hpos hchain
      (Nat.lt_of_lt_of_le first.levels_pos hfirst)
    rw [List.length_append] at hlength
    rw [chainLevels_append] at hchain
    obtain ⟨hproducts, hsums⟩ := Nat.max_le.mp hchain
    have hterm := products.height_le first.tree hproducts (first.height_le hfirst)
    have hsum := sums.height_le _ hsums hterm
    simp only [Expression.tree, Term.tree]
    omega

/-- A chain grows by a node with each operator. -/
theorem SumTail.height_le (d : SumTail) (left : Expr) {before n : Nat}
    (h : chainLevels before d.operandLevels ≤ n) (hleft : left.height + n ≤ tallest n + before) :
    (d.tree left).height + n ≤ tallest n + (before + d.operandLevels.length) := by
  match d with
  | .nil => exact hleft
  | .cons op _ operand rest =>
    obtain ⟨hoperand, hrest⟩ := Nat.max_le.mp h
    -- The term behind the operator has fewer levels, and so is lower than the chain before it.
    have hright := operand.height_lt (Nat.le_refl _)
    have hbound := tallest_add_lt (m := operand.levels) (n := n) (by omega)
    have hnext : (Expr.binary op left operand.tree).height + n ≤ tallest n + (before + 1) := by
      simp only [Expr.height]
      omega
    have ih := rest.height_le _ hrest hnext
    simp only [SumTail.tree, SumTail.operandLevels, List.length_cons]
    omega

theorem Term.height_lt (d : Term) {n : Nat} (h : d.levels ≤ n) : d.tree.height < tallest n := by
  match d with
  | .chain first products =>
    obtain ⟨hfirst, hproducts⟩ := Nat.max_le.mp h
    have hlength := length_lt_of_chainLevels_le products.operandLevels_pos hproducts
      (Nat.lt_of_lt_of_le first.levels_pos hfirst)
    have hterm := products.height_le first.tree hproducts (first.height_le hfirst)
    simp only [Term.tree]
    omega

theorem ProductTail.height_le (d : ProductTail) (left : Expr) {before n : Nat}
    (h : chainLevels before d.operandLevels ≤ n) (hleft : left.height + n ≤ tallest n + before) :
    (d.tree left).height + n ≤ tallest n + (before + d.operandLevels.length) := by
  match d with
  | .nil => exact hleft
  | .cons op _ operand rest =>
    obtain ⟨hoperand, hrest⟩ := Nat.max_le.mp h
    -- The factor behind the operator has fewer levels, and so is lower than the chain before it.
    have hright := operand.height_le (Nat.le_refl _)
    have hbound := tallest_add_le (m := operand.levels) (n := n) (by omega)
    have hnext : (Expr.binary op left operand.tree).height + n ≤ tallest n + (before + 1) := by
      simp only [Expr.height]
      omega
    have ih := rest.height_le _ hrest hnext
    simp only [ProductTail.tree, ProductTail.operandLevels, List.length_cons]
    omega

theorem Factor.height_le (d : Factor) {n : Nat} (h : d.levels ≤ n) :
    d.tree.height + n ≤ tallest n := by
  obtain _ | n := n
  · cases d <;> cases h
  match d with
  | .plus operand =>
    have hoperand := operand.height_le (Nat.le_of_succ_le_succ h)
    simp only [Factor.tree, tallest]
    omega
  | .minus operand =>
    have hoperand := operand.height_le (Nat.le_of_succ_le_succ h)
    simp only [Factor.tree, Expr.height, tallest]
    omega
  | .primary p =>
    have hp := p.height_le (Nat.le_of_succ_le_succ h)
    simp only [Factor.tree, tallest]
    omega
  | .power base exponent =>
    -- The base may be an expression in parentheses that has all the levels but one.
    obtain ⟨hb, he⟩ := Nat.max_le.mp (Nat.le_of_succ_le_succ h)
    have hbase := base.height_le hb
    have hexponent := exponent.height_le he
    have hpos := exponent.levels_pos
    simp only [Factor.tree, Expr.height, tallest]
    omega

theorem Primary.height_le (d : Primary) {n : Nat} (h : d.levels ≤ n) :
    d.tree.height ≤ max 1 (tallest n) := by
  match d with
  | .number _ | .name _ => exact Nat.le_max_left 1 _
  | .call _ arguments =>
    have harguments := arguments.height_le h
    simp only [Primary.tree, Expr.height]
    omega
  | .group inner =>
    have hinner := inner.height_lt h
    simp only [Primary.tree, Expr.height]
    omega

theorem Arguments.height_le (d : Arguments) {n : Nat} (h : d.levels ≤ n) :
    Expr.heightAll d.trees ≤ tallest n - 1 := by
  match d with
  | .empty => exact Nat.zero_le _
  | .list first rest =>
    obtain ⟨hfirst, hrest⟩ := Nat.max_le.mp h
    have hfirst := first.height_lt hfirst
    have hrest := rest.height_le hrest
    simp only [Arguments.trees, Expr.heightAll]
    omega

theorem ArgumentTail.height_le (d : ArgumentTail) {n : Nat} (h : d.levels ≤ n) :
    Expr.heightAll d.trees ≤ tallest n - 1 := by
  match d with
  | .nil => exact Nat.zero_le _
  | .cons argument rest =>
    obtain ⟨hargument, hrest⟩ := Nat.max_le.mp h
    have hargument := argument.height_lt hargument
    have hrest := rest.height_le hrest
    simp only [ArgumentTail.trees, Expr.heightAll]
    omega

end

/-! ### Trees above the limit -/

/-- The derived lexemes, spelled with blanks between them, are parsed. -/
theorem parse_spaced {d : Expression} (h : ∀ l ∈ d.lexemes, l.Legible)
    (hlevels : d.levels ≤ maxNesting) : parse (spaced d.lexemes) = .ok d.tree :=
  parse_of_derives (scan_spaced h) hlevels

/-- The factor `1`. -/
def one : Factor := .primary (.number "1")

/-- So many times `+ 1`. -/
def plusOnes : Nat → SumTail
  | 0 => .nil
  | n + 1 => .cons .add rfl (.chain one .nil) (plusOnes n)

/-- An expression that takes `n + 1` levels and is as high as these allow: the one before it in
parentheses, raised to a power, and then a chain. -/
def highest : Nat → Expression
  | 0 => .chain (.chain one .nil) .nil
  | n + 1 => .chain (.chain (.power (.group (highest n)) one) .nil) (plusOnes (n + 1))

theorem chainLevels_plusOnes_le (n before : Nat) :
    chainLevels before (plusOnes n).operandLevels ≤ before + n + 1 := by
  induction n generalizing before with
  | zero => exact Nat.zero_le _
  | succ n ih =>
    have hrest := ih (before + 1)
    have hone : (Term.chain one .nil).levels = 1 := rfl
    simp only [plusOnes, SumTail.operandLevels, chainLevels, hone]
    omega

theorem levels_highest_le (n : Nat) : (highest n).levels ≤ n + 1 := by
  induction n with
  | zero => exact Nat.le_refl 1
  | succ n ih =>
    have hchain := chainLevels_plusOnes_le (n + 1) 0
    simp only [highest, one, Expression.levels, Factor.levels, Primary.levels,
      ProductTail.operandLevels, List.nil_append]
    omega

theorem height_plusOnes (n : Nat) (left : Expr) (h : 0 < left.height) :
    ((plusOnes n).tree left).height = left.height + n := by
  induction n generalizing left with
  | zero => rfl
  | succ n ih =>
    have hnext : (Expr.binary .add left (.num (numberValue "1"))).height = left.height + 1 := by
      simp only [Expr.height]
      omega
    have hrest := ih (.binary .add left (.num (numberValue "1"))) (Nat.succ_pos _)
    rw [hnext, Nat.add_assoc, Nat.add_comm 1 n] at hrest
    exact hrest

theorem height_highest (n : Nat) : (highest n).tree.height + 1 = tallest (n + 1) := by
  induction n with
  | zero => rfl
  | succ n ih =>
    -- two nodes more: the parentheses and the power
    have hpower : (Expr.binary .power (.group (highest n).tree) one.tree).height =
        tallest (n + 1) + 1 := by
      simp only [Expr.height, one, Factor.tree, Primary.tree]
      omega
    -- and one for each operator of the chain
    have hchain := height_plusOnes (n + 1) (.binary .power (.group (highest n).tree) one.tree)
      (by omega)
    rw [hpower] at hchain
    show ((plusOnes (n + 1)).tree
      (.binary .power (.group (highest n).tree) one.tree)).height + 1 = _
    rw [hchain]
    show _ = tallest (n + 1) + (n + 1 + 2)
    omega

theorem legible_plusOnes (n : Nat) : ∀ l ∈ (plusOnes n).lexemes, l.Legible := by
  induction n with
  | zero => nofun
  | succ n ih =>
    intro l hl
    simp only [plusOnes, one, SumTail.lexemes, Term.lexemes, Factor.lexemes, Primary.lexemes,
      ProductTail.lexemes, List.mem_cons, List.mem_append, List.not_mem_nil, or_false] at hl
    rcases hl with rfl | rfl | hl
    · exact Lexeme.legible_symbol _
    · exact Lexeme.legible_one
    · exact ih l hl

theorem legible_highest (n : Nat) : ∀ l ∈ (highest n).lexemes, l.Legible := by
  induction n with
  | zero =>
    intro l hl
    obtain rfl : l = .number "1" := by simpa [highest, one, Expression.lexemes, Term.lexemes,
      Factor.lexemes, Primary.lexemes, ProductTail.lexemes, SumTail.lexemes] using hl
    exact Lexeme.legible_one
  | succ n ih =>
    intro l hl
    simp only [highest, one, Expression.lexemes, Term.lexemes, Factor.lexemes, Primary.lexemes,
      ProductTail.lexemes, List.mem_cons, List.mem_append, List.not_mem_nil, or_false] at hl
    rcases hl with ((rfl | hl | rfl) | rfl | rfl) | hl
    · exact Lexeme.legible_symbol _
    · exact ih l hl
    · exact Lexeme.legible_symbol _
    · exact Lexeme.legible_symbol _
    · exact Lexeme.legible_one
    · exact legible_plusOnes _ l hl

/-- The expression `1` in so many pairs of parentheses. -/
def nested : Nat → Expression
  | 0 => .chain (.chain one .nil) .nil
  | n + 1 => .chain (.chain (.primary (.group (nested n))) .nil) .nil

theorem lexemes_nested (n : Nat) : (nested n).lexemes =
    List.replicate n (.symbol .leftParen) ++
      .number "1" :: List.replicate n (.symbol .rightParen) := by
  induction n with
  | zero => rfl
  | succ n ih =>
    rw [List.replicate_succ, List.replicate_succ' (a := Lexeme.symbol .rightParen)]
    simp [nested, Expression.lexemes, Term.lexemes, Factor.lexemes, Primary.lexemes,
      ProductTail.lexemes, SumTail.lexemes, ih]

theorem levels_nested (n : Nat) : (nested n).levels = n + 1 := by
  induction n with
  | zero => rfl
  | succ n ih => simp [nested, Expression.levels, Factor.levels, Primary.levels,
      ProductTail.operandLevels, SumTail.operandLevels, chainLevels, ih]

theorem height_nested (n : Nat) : (nested n).tree.height = n + 1 := by
  induction n with
  | zero => rfl
  | succ n ih =>
    show (nested n).tree.height + 1 = _
    rw [ih]

theorem legible_nested (n : Nat) : ∀ l ∈ (nested n).lexemes, l.Legible := by
  intro l hl
  rw [lexemes_nested, List.mem_append, List.mem_cons, List.mem_replicate, List.mem_replicate] at hl
  rcases hl with ⟨-, rfl⟩ | rfl | ⟨-, rfl⟩
  · exact Lexeme.legible_symbol _
  · exact Lexeme.legible_one
  · exact Lexeme.legible_symbol _

/-- One operator behind nested parentheses, on a level that they have given back. -/
theorem exists_parse_nested_plus_one {n : Nat} (h : n + 2 ≤ maxNesting) :
    ∃ e, parse (spaced (List.replicate (n + 1) (.symbol .leftParen) ++
        .number "1" :: (List.replicate (n + 1) (.symbol .rightParen) ++
          [.symbol .plus, .number "1"]))) = .ok e ∧
      e.height = n + 3 := by
  let d : Expression := .chain (.chain (.primary (.group (nested n))) .nil) (plusOnes 1)
  have hlexemes : d.lexemes = (nested (n + 1)).lexemes ++ [.symbol .plus, .number "1"] := by
    simp only [d, nested, Expression.lexemes, SumTail.lexemes, List.append_nil]
    rfl
  have hlegible : ∀ l ∈ d.lexemes, l.Legible := by
    intro l hl
    rw [hlexemes, List.mem_append] at hl
    rcases hl with hl | hl
    · exact legible_nested (n + 1) l hl
    · exact legible_plusOnes 1 l hl
  -- The operator and its operand take two levels, the parentheses before them all the others.
  have hlevels : d.levels = max (n + 2) 2 := by
    show max ((nested n).levels + 1) 2 = _
    rw [levels_nested]
  have hparse := parse_spaced hlegible (by omega)
  rw [hlexemes, lexemes_nested, List.append_assoc, List.cons_append] at hparse
  refine ⟨d.tree, hparse, ?_⟩
  show max ((nested n).tree.height + 1) 1 + 1 = n + 3
  rw [height_nested]
  omega

/-! ### Parsed trees -/

theorem tallest_maxNesting : tallest maxNesting = 33152 := by
  have h := two_mul_tallest maxNesting
  simp only [maxNesting] at h ⊢
  omega

/-- **What the limit bounds, and what it does not.**  The height of a parsed tree is within the
limit exactly when its left operands are low enough.  The height that does not count a node on the
way to its left operand always is; the height itself has a bound far above it. -/
theorem height_of_parse {s : String} {e : Expr} (h : parse s = .ok e) :
    (e.height ≤ maxNesting ↔ e.LeftWithin maxNesting) ∧
      e.countedHeight ≤ maxNesting ∧ e.height ≤ 33151 := by
  obtain ⟨d, -, rfl, hlevels⟩ := exists_derives_of_parse h
  have hcounted := Nat.le_trans d.countedHeight_le hlevels
  have hheight := d.height_lt hlevels
  rw [tallest_maxNesting] at hheight
  exact ⟨Expr.height_le_iff_leftWithin _ hcounted, hcounted, Nat.le_of_lt_succ hheight⟩

/-- A number in two pairs of parentheses, and its square. -/
theorem height_of_parse_square :
    ∃ e, parse "((7))^2" = .ok e ∧ (e.height ≤ maxNesting ↔ e.LeftWithin maxNesting) ∧
      e.countedHeight ≤ maxNesting ∧ e.height ≤ 33151 := by
  have hparsed : (parse "((7))^2").isOk = true := by decide +kernel
  cases h : parse "((7))^2" with
  | error e =>
    rw [h] at hparsed
    cases hparsed
  | ok e => exact ⟨e, rfl, height_of_parse h⟩

/-- **A text whose tree is higher than the limit**: `1` in 255 pairs of parentheses, and then
`+ 1`. -/
theorem height_nested_plus_one :
    ∃ e, parse (spaced (List.replicate 255 (.symbol .leftParen) ++
        .number "1" :: (List.replicate 255 (.symbol .rightParen) ++
          [.symbol .plus, .number "1"]))) = .ok e ∧
      e.height = maxNesting + 1 :=
  exists_parse_nested_plus_one (n := 254) (by decide)

/-- The bound on the height is reached. -/
theorem isGreatest_height : IsGreatest {k | ∃ s e, parse s = .ok e ∧ e.height = k} 33151 := by
  constructor
  · have hheight := height_highest 255
    refine ⟨_, _, parse_spaced (legible_highest 255) (levels_highest_le 255), ?_⟩
    rw [show 255 + 1 = maxNesting from rfl, tallest_maxNesting] at hheight
    omega
  · rintro k ⟨s, e, h, rfl⟩
    obtain ⟨d, -, rfl, hlevels⟩ := exists_derives_of_parse h
    have hheight := d.height_lt hlevels
    rw [tallest_maxNesting] at hheight
    omega

end Grammar
end Abacus
