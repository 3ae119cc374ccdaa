import Abacus.Proofs.Grammar.Spelling

/-!
# What is derived is read

A reader that has enough levels follows any derivation through the tokens that spell it, provided
that what comes after does not go on with it.  The proof is by recursion on the derivation.

## Main definitions

* `EndsFactor`, `EndsTerm`, `EndsExpression`: what comes after does not go on

## Main results

* `Expression.complete`: a derived expression is read
-/

namespace Abacus.Grammar

open Reader

/-! ### Where a derivation ends -/

/-- Neither a power nor the arguments of a call begin here. -/
structure EndsFactor (ts : List Token) : Prop where
  caret : (front ts).kind ≠ .symbol .caret
  leftParen : (front ts).kind ≠ .symbol .leftParen

/-- Nor does a product go on here. -/
structure EndsTerm (ts : List Token) : Prop extends EndsFactor ts where
  product : chainOperator? .factor ts = none

/-- Nor does a sum. -/
structure EndsExpression (ts : List Token) : Prop extends EndsFactor ts where
  sum : chainOperator? .term ts = none

theorem EndsExpression.endsTerm {ts : List Token} (h : EndsExpression ts) : EndsTerm ts :=
  ⟨h.toEndsFactor, chainOperator?_factor_of_term h.sum⟩

theorem endsExpression_rightParen (span : Span) (ts : List Token) :
    EndsExpression (⟨.symbol .rightParen, span⟩ :: ts) := ⟨⟨nofun, nofun⟩, rfl⟩

theorem endsExpression_comma (span : Span) (ts : List Token) :
    EndsExpression (⟨.symbol .comma, span⟩ :: ts) := ⟨⟨nofun, nofun⟩, rfl⟩

theorem endsExpression_of_isEnd {ts : List Token} (h : (front ts).isEnd = true) :
    EndsExpression ts := by
  have hlexeme : (front ts).lexeme = .endOfInput := eq_of_beq h
  have hkind : (front ts).kind = .endOfInput := by rw [Token.kind, hlexeme]; rfl
  refine ⟨⟨by rw [hkind]; nofun, by rw [hkind]; nofun⟩, ?_⟩
  rw [chainOperator?, hkind]
  rfl

section

variable {ts rest : List Token}

/-- A factor ends where an operator of a chain stands. -/
theorem endsFactor_operator (op : BinaryOp) (h : op.precedence ≠ .exponent) (span : Span) :
    EndsFactor (⟨.symbol op.symbol, span⟩ :: ts) := by
  constructor
  · cases op with
    | power => exact absurd rfl h
    | _ => exact nofun
  · cases op <;> exact nofun

theorem ProductTail.endsFactor {d : ProductTail} (h : Spells ts d.lexemes rest)
    (hrest : EndsFactor rest) : EndsFactor ts := by
  cases d with
  | nil => exact spells_nil.mp h ▸ hrest
  | cons op isProduct _ _ =>
    obtain ⟨span, ts', rfl, -⟩ := spells_cons.mp h
    exact endsFactor_operator op (by rw [isProduct]; nofun) span

theorem SumTail.endsFactor {d : SumTail} (h : Spells ts d.lexemes rest)
    (hrest : EndsFactor rest) : EndsFactor ts := by
  cases d with
  | nil => exact spells_nil.mp h ▸ hrest
  | cons op isSum _ _ =>
    obtain ⟨span, ts', rfl, -⟩ := spells_cons.mp h
    exact endsFactor_operator op (by rw [isSum]; nofun) span

/-- A term ends where a sum goes on. -/
theorem SumTail.endsTerm {d : SumTail} (h : Spells ts d.lexemes rest)
    (hrest : EndsTerm rest) : EndsTerm ts := by
  refine ⟨d.endsFactor h hrest.toEndsFactor, ?_⟩
  cases d with
  | nil => exact spells_nil.mp h ▸ hrest.product
  -- an operator of sums binds too loosely for a chain of products
  | cons op isSum _ _ =>
    obtain ⟨span, ts', rfl, -⟩ := spells_cons.mp h
    cases op <;> first | rfl | cases isSum

theorem ArgumentTail.endsExpression {d : ArgumentTail}
    (h : Spells ts (d.lexemes ++ [.symbol .rightParen]) rest) : EndsExpression ts := by
  cases d with
  | nil =>
    obtain ⟨span, ts', rfl, -⟩ := spells_cons.mp h
    exact endsExpression_rightParen span ts'
  | cons _ _ =>
    obtain ⟨span, ts', rfl, -⟩ := spells_cons.mp h
    exact endsExpression_comma span ts'

end

/-! ### Where a derivation begins -/

/-- No expression begins with a closing parenthesis. -/
def Begins (ls : List Lexeme) : Prop := ∃ l rest, ls = l :: rest ∧ l ≠ .symbol .rightParen

theorem Begins.append {ls : List Lexeme} (h : Begins ls) (ls' : List Lexeme) :
    Begins (ls ++ ls') := by
  obtain ⟨l, rest, rfl, hl⟩ := h
  exact ⟨l, rest ++ ls', rfl, hl⟩

theorem Primary.begins (d : Primary) : Begins d.lexemes := by
  cases d with
  | number _ | name _ | call _ _ | group _ => exact ⟨_, _, rfl, nofun⟩

theorem Factor.begins (d : Factor) : Begins d.lexemes := by
  cases d with
  | plus _ | minus _ => exact ⟨_, _, rfl, nofun⟩
  | primary p => exact p.begins
  | power base exponent => exact base.begins.append _

theorem Expression.begins (d : Expression) : Begins d.lexemes := by
  obtain ⟨⟨first, products⟩, sums⟩ := d
  exact (first.begins.append _).append _

/-! ### One step of the readers -/

theorem extend_of_end {n : Nat} {least : Precedence} {left : Expr} {ts : List Token}
    (h : chainOperator? least ts = none) :
    (Readers.ofNat n).extend least left ts = .ok (left, ts) := by
  cases n with
  | zero => simp only [Readers.ofNat, Readers.ground, h]; rfl
  | succ n => simp only [Readers.ofNat, Readers.above, h]; rfl

/-- A chain goes on with an operand and the levels that are then left. -/
theorem extend_cons {n : Nat} {least : Precedence} {op : BinaryOp} {left right : Expr}
    {ts ts' : List Token} {span : Span}
    (h : chainOperator? least (⟨.symbol op.symbol, span⟩ :: ts) = some op)
    (hright : (Readers.ofNat n).chain op.precedence.next ts = .ok (right, ts')) :
    (Readers.ofNat (n + 1)).extend least left (⟨.symbol op.symbol, span⟩ :: ts) =
      (Readers.ofNat n).extend least (.binary op left right) ts' := by
  simp only [Readers.ofNat, Readers.above, h, List.tail_cons, hright]
  rfl

/-- A single factor is a chain of powers. -/
theorem chain_exponent {n : Nat} {e : Expr} {ts rest : List Token}
    (h : (Readers.ofNat n).factor ts = .ok (e, rest)) :
    (Readers.ofNat n).chain .exponent ts = .ok (e, rest) := by
  simp only [Readers.chain, h]
  exact extend_of_end (chainOperator?_exponent rest)

/-- A factor that does not begin with a sign is a primary and perhaps a power of it. -/
theorem factor_of_primary {n : Nat} (d : Primary) {ts rest : List Token}
    (h : Spells ts d.lexemes rest) :
    (Readers.ofNat (n + 1)).factor ts = (do
      let (base, ts) ← primary (Readers.ofNat n).expression ts
      match ts with
      | ⟨.symbol .caret, _⟩ :: ts => do
        let (exponent, ts) ← (Readers.ofNat n).factor ts
        pure (.binary .power base exponent, ts)
      | _ => pure (base, ts)) := by
  cases d with
  | number _ | name _ | call _ _ | group _ =>
    obtain ⟨span, ts', rfl, -⟩ := spells_cons.mp h
    rfl

/-! ### Derivations are followed -/

/-- The digits of all numbers spell one. -/
def NumbersRead (ls : List Lexeme) : Prop :=
  ∀ digits, .number digits ∈ ls → ∃ value, Decimal.read? digits = some value

namespace NumbersRead

variable {l : Lexeme} {ls ls' : List Lexeme}

theorem tail (h : NumbersRead (l :: ls)) : NumbersRead ls :=
  fun digits hmem => h digits (List.mem_cons_of_mem l hmem)

theorem left (h : NumbersRead (ls ++ ls')) : NumbersRead ls :=
  fun digits hmem => h digits (List.mem_append_left ls' hmem)

theorem right (h : NumbersRead (ls ++ ls')) : NumbersRead ls' :=
  fun digits hmem => h digits (List.mem_append_right ls hmem)

end NumbersRead

mutual

/-- **A derived expression is read** by readers that have the levels it takes. -/
theorem Expression.complete (d : Expression) {n : Nat} (hlevels : d.levels ≤ n)
    (hnumbers : NumbersRead d.lexemes) {ts rest : List Token}
    (h : Spells ts d.lexemes rest) (hend : EndsExpression rest) :
    (Readers.ofNat n).expression ts = .ok (d.tree, rest) := by
  match d with
  | .chain (.chain first products) sums =>
    obtain ⟨hfirst, hchain⟩ := Nat.max_le.mp hlevels
    -- All operators together leave `k` levels, and those of the first term as many more as
    -- there are others.
    have hlength := length_le_of_chainLevels_le hchain
    rw [List.length_append, Nat.add_comm] at hlength
    obtain ⟨k, rfl⟩ := Nat.exists_eq_add_of_le' hlength
    rw [← Nat.add_assoc] at hchain hfirst ⊢
    obtain ⟨hproducts, hsums⟩ := chainLevels_append_le_iff.mp hchain
    obtain ⟨middle, hterm, hs⟩ := spells_append.mp h
    obtain ⟨start, hf, hp⟩ := spells_append.mp hterm
    have hmiddle := sums.endsFactor hs hend.toEndsFactor
    have hfactor := first.complete hfirst hnumbers.left.left hf (products.endsFactor hp hmiddle)
    have hp := products.complete .term (by decide) hproducts hnumbers.left.right hp hmiddle
      first.tree
    have hs := sums.complete hsums hnumbers.right hs hend.endsTerm
      (products.tree first.tree)
    show ((Readers.ofNat _).factor ts >>= _) = _
    rw [hfactor]
    exact (hp.trans hs).trans (extend_of_end hend.sum)

/-- Readers get through the products of a chain, and go on with the levels that are left. -/
theorem ProductTail.complete (d : ProductTail) {n : Nat} (least : Precedence)
    (hleast : least.rank ≤ Precedence.factor.rank)
    (hlevels : chainLevels 0 d.operandLevels ≤ n + d.operandLevels.length)
    (hnumbers : NumbersRead d.lexemes) {ts rest : List Token} (h : Spells ts d.lexemes rest)
    (hend : EndsFactor rest) (left : Expr) :
    (Readers.ofNat (n + d.operandLevels.length)).extend least left ts =
      (Readers.ofNat n).extend least (d.tree left) rest := by
  match d with
  | .nil =>
    obtain rfl := spells_nil.mp h
    rfl
  | .cons op isProduct operand others =>
    obtain ⟨span, ts', rfl, htail⟩ := spells_cons.mp h
    obtain ⟨middle, hoperand, hothers⟩ := spells_append.mp htail
    obtain ⟨hlevels, hmore⟩ := chainLevels_cons_le_iff.mp hlevels
    have hfactor := operand.complete hlevels hnumbers.tail.left hoperand
      (others.endsFactor hothers hend)
    -- After the operator there is one level less, for the factor and for what is left of the chain.
    have hop : chainOperator? least (⟨.symbol op.symbol, span⟩ :: ts') = some op :=
      chainOperator?_eq_some.mpr ⟨⟨span, ts', rfl⟩, by rw [isProduct]; exact ⟨hleast, by decide⟩⟩
    have hright : (Readers.ofNat (n + others.operandLevels.length)).chain op.precedence.next ts' =
        .ok (operand.tree, middle) := by
      rw [isProduct]
      exact chain_exponent hfactor
    have hothers := others.complete least hleast hmore hnumbers.tail.right hothers hend
      (.binary op left operand.tree)
    exact (extend_cons hop hright).trans hothers

theorem SumTail.complete (d : SumTail) {n : Nat}
    (hlevels : chainLevels 0 d.operandLevels ≤ n + d.operandLevels.length)
    (hnumbers : NumbersRead d.lexemes) {ts rest : List Token} (h : Spells ts d.lexemes rest)
    (hend : EndsTerm rest) (left : Expr) :
    (Readers.ofNat (n + d.operandLevels.length)).extend .term left ts =
      (Readers.ofNat n).extend .term (d.tree left) rest := by
  match d with
  | .nil =>
    obtain rfl := spells_nil.mp h
    rfl
  | .cons op isSum operand others =>
    obtain ⟨span, ts', rfl, htail⟩ := spells_cons.mp h
    obtain ⟨middle, hoperand, hothers⟩ := spells_append.mp htail
    obtain ⟨hlevels, hmore⟩ := chainLevels_cons_le_iff.mp hlevels
    have hterm := operand.complete hlevels hnumbers.tail.left hoperand
      (others.endsTerm hothers hend)
    have hop : chainOperator? .term (⟨.symbol op.symbol, span⟩ :: ts') = some op :=
      chainOperator?_term.mpr ⟨⟨span, ts', rfl⟩, .inl isSum⟩
    have hright : (Readers.ofNat (n + others.operandLevels.length)).chain op.precedence.next ts' =
        .ok (operand.tree, middle) := by
      rw [isSum]
      exact hterm
    have hothers := others.complete hmore hnumbers.tail.right hothers hend
      (.binary op left operand.tree)
    exact (extend_cons hop hright).trans hothers

theorem Term.complete (d : Term) {n : Nat} (hlevels : d.levels ≤ n)
    (hnumbers : NumbersRead d.lexemes) {ts rest : List Token}
    (h : Spells ts d.lexemes rest) (hend : EndsTerm rest) :
    (Readers.ofNat n).chain .factor ts = .ok (d.tree, rest) := by
  match d with
  | .chain first products =>
    obtain ⟨hfirst, hproducts⟩ := Nat.max_le.mp hlevels
    obtain ⟨m, rfl⟩ := Nat.exists_eq_add_of_le' (length_le_of_chainLevels_le hproducts)
    obtain ⟨start, hf, hp⟩ := spells_append.mp h
    have hfactor := first.complete hfirst hnumbers.left hf
      (products.endsFactor hp hend.toEndsFactor)
    have hp := products.complete .factor (by decide) hproducts hnumbers.right hp
      hend.toEndsFactor first.tree
    show ((Readers.ofNat _).factor ts >>= _) = _
    rw [hfactor]
    exact hp.trans (extend_of_end hend.product)

theorem Factor.complete (d : Factor) {n : Nat} (hlevels : d.levels ≤ n)
    (hnumbers : NumbersRead d.lexemes) {ts rest : List Token}
    (h : Spells ts d.lexemes rest) (hend : EndsFactor rest) :
    (Readers.ofNat n).factor ts = .ok (d.tree, rest) := by
  -- A factor takes a level itself.
  obtain _ | n := n
  · cases d <;> cases hlevels
  match d with
  | .plus operand =>
    obtain ⟨span, ts', rfl, htail⟩ := spells_cons.mp h
    exact operand.complete (Nat.le_of_succ_le_succ hlevels) hnumbers.tail htail hend
  | .minus operand =>
    obtain ⟨span, ts', rfl, htail⟩ := spells_cons.mp h
    have hoperand := operand.complete (Nat.le_of_succ_le_succ hlevels) hnumbers.tail htail hend
    show ((Readers.ofNat n).factor ts' >>= _) = _
    rw [hoperand]
    rfl
  | .primary p =>
    have hp := p.complete (Nat.le_of_succ_le_succ hlevels) hnumbers h hend.leftParen
    rw [factor_of_primary p h, hp]
    show (match rest with | ⟨.symbol .caret, _⟩ :: _ => _ | _ => _) = _
    split
    -- no power goes on after the factor
    · exact absurd rfl hend.caret
    · rfl
  | .power base exponent =>
    obtain ⟨middle, hbase, htail⟩ := spells_append.mp h
    obtain ⟨span, ts', rfl, htail'⟩ := spells_cons.mp htail
    obtain ⟨hb, he⟩ := Nat.max_le.mp (Nat.le_of_succ_le_succ hlevels)
    have hp := base.complete hb hnumbers.left hbase nofun
    have hexponent := exponent.complete he hnumbers.right.tail htail' hend
    rw [factor_of_primary base hbase, hp]
    show ((Readers.ofNat n).factor ts' >>= _) = _
    rw [hexponent]
    rfl

theorem Primary.complete (d : Primary) {n : Nat} (hlevels : d.levels ≤ n)
    (hnumbers : NumbersRead d.lexemes) {ts rest : List Token}
    (h : Spells ts d.lexemes rest) (hend : (front rest).kind ≠ .symbol .leftParen) :
    primary (Readers.ofNat n).expression ts = .ok (d.tree, rest) := by
  match d with
  | .number digits =>
    obtain ⟨span, ts', rfl, htail⟩ := spells_cons.mp h
    obtain rfl := spells_nil.mp htail
    obtain ⟨value, hvalue⟩ := hnumbers digits List.mem_cons_self
    rw [primary, Primary.tree, numberValue, hvalue]
    rfl
  | .name text =>
    obtain ⟨span, ts', rfl, htail⟩ := spells_cons.mp h
    obtain rfl := spells_nil.mp htail
    unfold primary
    split
    · next heq => cases heq
    -- no arguments come after the name
    · next heq =>
      cases heq
      exact absurd rfl hend
    · next heq =>
      cases heq
      rfl
    · next heq => cases heq
    · next hno _ => exact absurd rfl (hno text span ts')
  | .call text arguments =>
    obtain ⟨span, ts', rfl, htail⟩ := spells_cons.mp h
    obtain ⟨span', ts'', rfl, htail'⟩ := spells_cons.mp htail
    have harguments := arguments.complete hlevels hnumbers.tail.tail.left htail'
    rw [primary, harguments]
    rfl
  | .group inner =>
    obtain ⟨span, ts', rfl, htail⟩ := spells_cons.mp h
    obtain ⟨middle, hinner, hclose⟩ := spells_append.mp htail
    obtain ⟨span', ts'', rfl, hnil⟩ := spells_cons.mp hclose
    obtain rfl := spells_nil.mp hnil
    have hinner := inner.complete hlevels hnumbers.tail.left hinner
      (endsExpression_rightParen span' ts'')
    rw [primary, hinner]
    rfl

theorem Arguments.complete (d : Arguments) {n : Nat} (hlevels : d.levels ≤ n)
    (hnumbers : NumbersRead d.lexemes) {ts rest : List Token}
    (h : Spells ts (d.lexemes ++ [.symbol .rightParen]) rest) :
    arguments (Readers.ofNat n).expression ts = .ok (d.trees, rest) := by
  match d with
  | .empty =>
    obtain ⟨span, ts', rfl, htail⟩ := spells_cons.mp h
    obtain rfl := spells_nil.mp htail
    rfl
  | .list first others =>
    rw [Arguments.lexemes, List.append_assoc] at h
    obtain ⟨middle, hfirst, hothers⟩ := spells_append.mp h
    obtain ⟨hlevels, hmore⟩ := Nat.max_le.mp hlevels
    have hargument := first.complete hlevels hnumbers.left hfirst (others.endsExpression hothers)
    have hlength := h.length_le
    -- The first argument does not begin with the parenthesis that would close an empty list.
    obtain ⟨l, ls, hbegins, hl⟩ := first.begins
    rw [hbegins] at hfirst
    obtain ⟨span, ts', rfl, -⟩ := spells_cons.mp hfirst
    unfold arguments
    split
    · next heq =>
      cases heq
      exact absurd rfl hl
    · refine others.complete hmore hnumbers.right ?_ hargument hothers
      simp only [List.length_append, List.length_cons] at hlength ⊢
      omega

theorem ArgumentTail.complete (d : ArgumentTail) {n : Nat} (hlevels : d.levels ≤ n)
    (hnumbers : NumbersRead d.lexemes) {more : Nat} (hmore : d.lexemes.length < more)
    {ts middle rest : List Token} {argument : Expr}
    (hargument : (Readers.ofNat n).expression ts = .ok (argument, middle))
    (h : Spells middle (d.lexemes ++ [.symbol .rightParen]) rest) :
    argumentList (Readers.ofNat n).expression more ts = .ok (argument :: d.trees, rest) := by
  -- There are more tokens than arguments, so the bound on their number is never felt.
  obtain _ | more := more
  · cases hmore
  rw [argumentList, hargument]
  match d with
  | .nil =>
    obtain ⟨span, ts', rfl, htail⟩ := spells_cons.mp h
    obtain rfl := spells_nil.mp htail
    rfl
  | .cons next others =>
    rw [ArgumentTail.lexemes, List.cons_append, List.append_assoc] at h
    obtain ⟨span, ts', rfl, htail⟩ := spells_cons.mp h
    obtain ⟨middle', hnext, hothers⟩ := spells_append.mp htail
    obtain ⟨hlevels, hmoreLevels⟩ := Nat.max_le.mp hlevels
    have hargument' := next.complete hlevels hnumbers.tail.left hnext
      (others.endsExpression hothers)
    have hfuel : others.lexemes.length < more := by
      simp only [ArgumentTail.lexemes, List.length_cons, List.length_append] at hmore
      omega
    have hrest := others.complete hmoreLevels hnumbers.tail.right hfuel hargument' hothers
    show (argumentList _ more ts' >>= _) = _
    rw [hrest]
    rfl

end

end Abacus.Grammar
