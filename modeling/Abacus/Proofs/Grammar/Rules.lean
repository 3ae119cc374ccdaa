import Abacus.Proofs.Grammar.Derivation

/-!
# Derivations put together

Which trees are derived, rule by rule.  A chain is continued at its end, since it nests to the
left, while derivations hold the operands of a chain from the front.  A tree that a tight rule
derives is derived by the looser ones too, and a tree in parentheses by all of them.

## Main definitions

* `SumTail.snoc`, `ProductTail.snoc`: one more operand at the end of a chain
* `Rule.Derived`: a rule derives a tree from lexemes

## Main results

* `Rule.Derived.weaken`: looser rules
* `Rule.Derived.sum`, `Rule.Derived.product`, `Rule.Derived.power`: binary operations
-/

namespace Abacus.Grammar

/-- One more product at the end of a chain. -/
def ProductTail.snoc (op : BinaryOp) (isProduct : op.precedence = .factor) (operand : Factor) :
    ProductTail → ProductTail
  | .nil => .cons op isProduct operand .nil
  | .cons op' isProduct' operand' rest =>
    .cons op' isProduct' operand' (rest.snoc op isProduct operand)

/-- One more sum at the end of a chain. -/
def SumTail.snoc (op : BinaryOp) (isSum : op.precedence = .term) (operand : Term) :
    SumTail → SumTail
  | .nil => .cons op isSum operand .nil
  | .cons op' isSum' operand' rest => .cons op' isSum' operand' (rest.snoc op isSum operand)

section

variable {op : BinaryOp}

theorem ProductTail.lexemes_snoc (isProduct : op.precedence = .factor) (operand : Factor)
    (d : ProductTail) : (d.snoc op isProduct operand).lexemes =
      d.lexemes ++ .symbol op.symbol :: operand.lexemes := by
  cases d with
  | nil => simp only [snoc, lexemes, List.append_nil, List.nil_append]
  | cons op' isProduct' operand' rest =>
    simp only [snoc, lexemes, rest.lexemes_snoc isProduct operand, List.cons_append,
      List.append_assoc]

theorem ProductTail.tree_snoc (isProduct : op.precedence = .factor) (operand : Factor)
    (d : ProductTail) (left : Expr) : (d.snoc op isProduct operand).tree left =
      .binary op (d.tree left) operand.tree := by
  cases d with
  | nil => rfl
  | cons op' isProduct' operand' rest => exact rest.tree_snoc isProduct operand _

theorem SumTail.lexemes_snoc (isSum : op.precedence = .term) (operand : Term)
    (d : SumTail) : (d.snoc op isSum operand).lexemes =
      d.lexemes ++ .symbol op.symbol :: operand.lexemes := by
  cases d with
  | nil => simp only [snoc, lexemes, List.append_nil, List.nil_append]
  | cons op' isSum' operand' rest =>
    simp only [snoc, lexemes, rest.lexemes_snoc isSum operand, List.cons_append,
      List.append_assoc]

theorem SumTail.tree_snoc (isSum : op.precedence = .term) (operand : Term)
    (d : SumTail) (left : Expr) : (d.snoc op isSum operand).tree left =
      .binary op (d.tree left) operand.tree := by
  cases d with
  | nil => rfl
  | cons op' isSum' operand' rest => exact rest.tree_snoc isSum operand _

end

/-- The rules that derive trees, from the loosest to the tightest. -/
inductive Rule where
  | expression | term | factor | primary

namespace Rule

/-- Tighter rules have higher ranks. -/
def rank : Rule → Nat
  | expression => 0
  | term => 1
  | factor => 2
  | primary => 3

theorem rank_le_primary (r : Rule) : r.rank ≤ primary.rank := by
  cases r <;> decide

/-- **A rule derives a tree** from lexemes. -/
def Derived (ls : List Lexeme) (e : Expr) : Rule → Prop
  | expression => ∃ d : Expression, d.lexemes = ls ∧ d.tree = e
  | term => ∃ d : Term, d.lexemes = ls ∧ d.tree = e
  | factor => ∃ d : Factor, d.lexemes = ls ∧ d.tree = e
  | primary => ∃ d : Primary, d.lexemes = ls ∧ d.tree = e

namespace Derived

variable {ls ls' : List Lexeme} {e e' : Expr}

theorem factor_of_primary (h : Derived ls e .primary) : Derived ls e .factor := by
  obtain ⟨d, rfl, rfl⟩ := h
  exact ⟨.primary d, rfl, rfl⟩

theorem term_of_factor (h : Derived ls e .factor) : Derived ls e .term := by
  obtain ⟨d, rfl, rfl⟩ := h
  exact ⟨.chain d .nil, List.append_nil _, rfl⟩

theorem expression_of_term (h : Derived ls e .term) : Derived ls e .expression := by
  obtain ⟨d, rfl, rfl⟩ := h
  exact ⟨.chain d .nil, List.append_nil _, rfl⟩

/-- A looser rule derives what a tighter one derives. -/
theorem weaken {r r' : Rule} (h : Derived ls e r) (hle : r'.rank ≤ r.rank) :
    Derived ls e r' := by
  have hfactor (h : Derived ls e .factor) (hle : r'.rank ≤ 2) : Derived ls e r' := by
    cases r' with
    | expression => exact h.term_of_factor.expression_of_term
    | term => exact h.term_of_factor
    | factor => exact h
    | primary => exact absurd hle (by decide)
  cases r with
  | expression =>
    cases r' with
    | expression => exact h
    | _ => exact absurd hle (by decide)
  | term =>
    cases r' with
    | expression => exact h.expression_of_term
    | term => exact h
    | _ => exact absurd hle (by decide)
  | factor => exact hfactor h hle
  | primary =>
    cases r' with
    | primary => exact h
    | expression | term | factor => exact hfactor h.factor_of_primary (by decide)

/-- A tree in parentheses. -/
theorem group (h : Derived ls e .expression) :
    Derived (.symbol .leftParen :: (ls ++ [.symbol .rightParen])) (.group e) .primary := by
  obtain ⟨d, rfl, rfl⟩ := h
  exact ⟨.group d, rfl, rfl⟩

theorem neg (h : Derived ls e .factor) : Derived (.symbol .minus :: ls) (.neg e) .factor := by
  obtain ⟨d, rfl, rfl⟩ := h
  exact ⟨.minus d, rfl, rfl⟩

theorem sum {op : BinaryOp} (isSum : op.precedence = .term) (h : Derived ls e .expression)
    (h' : Derived ls' e' .term) :
    Derived (ls ++ .symbol op.symbol :: ls') (.binary op e e') .expression := by
  obtain ⟨⟨first, rest⟩, rfl, rfl⟩ := h
  obtain ⟨operand, rfl, rfl⟩ := h'
  refine ⟨.chain first (rest.snoc op isSum operand), ?_, rest.tree_snoc isSum operand _⟩
  rw [Expression.lexemes, Expression.lexemes, SumTail.lexemes_snoc, List.append_assoc]

theorem product {op : BinaryOp} (isProduct : op.precedence = .factor) (h : Derived ls e .term)
    (h' : Derived ls' e' .factor) :
    Derived (ls ++ .symbol op.symbol :: ls') (.binary op e e') .term := by
  obtain ⟨⟨first, rest⟩, rfl, rfl⟩ := h
  obtain ⟨operand, rfl, rfl⟩ := h'
  refine ⟨.chain first (rest.snoc op isProduct operand), ?_, rest.tree_snoc isProduct operand _⟩
  rw [Term.lexemes, Term.lexemes, ProductTail.lexemes_snoc, List.append_assoc]

theorem power (h : Derived ls e .primary) (h' : Derived ls' e' .factor) :
    Derived (ls ++ .symbol .caret :: ls') (.binary .power e e') .factor := by
  obtain ⟨base, rfl, rfl⟩ := h
  obtain ⟨exponent, rfl, rfl⟩ := h'
  exact ⟨.power base exponent, rfl, rfl⟩

end Derived

end Rule

end Abacus.Grammar
