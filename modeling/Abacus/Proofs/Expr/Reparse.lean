import Abacus.Proofs.Decimal.ReadBack
import Abacus.Proofs.Expr.Printed
import Abacus.Proofs.Grammar.Levels
import Abacus.Proofs.Grammar.Rules

/-!
# Printed expressions are read back

The parentheses that are written around operands make the text say the same tree again.  Every
tree is derived by a rule of the grammar from the lexemes of its text, and an operand is written
without parentheses only where a rule at least as loose is called for.  What is read back has a
node for each pair of parentheses that was added, and a minus sign that belonged to a number has
become a negation.

## Main definitions

* `Expr.signed`: negative numbers as negations
* `Expr.reread`: these, and a node for each pair of parentheses that is added
* `Expr.ungrouped`: without any parentheses
* `Grammar.Rule.Derived`: a rule of the grammar derives a tree from lexemes

## Main results

* `Expr.ungrouped_reread`: only parentheses are added
* `Expr.Legible.derived`: every tree is derived
* `Expr.parse_print`: what is printed is read back
-/

namespace Abacus

/-! ### What is read back -/

namespace Expr

/-- A number without a sign, or the negation of one. -/
def signedNumber (value : Float) : Expr :=
  if (Binary64.ofFloat value).isNegative then neg (num value.abs) else num value

/-- A tree, in parentheses if asked. -/
def wrap (wanted : Bool) (e : Expr) : Expr := if wanted then group e else e

theorem signedNumber_eq_num {value : Float} (h : (Binary64.ofFloat value).isNegative = false) :
    signedNumber value = num value := by
  rw [signedNumber, h]
  rfl

mutual

/-- **Negative numbers** replaced by the negations of their absolute values. -/
def signed : Expr → Expr
  | num value => signedNumber value
  | var name => var name
  | group inner => group inner.signed
  | neg operand => neg operand.signed
  | trailingNeg operand => trailingNeg operand.signed
  | binary op left right => binary op left.signed right.signed
  | call name arguments => call name (signedArguments arguments)

def signedArguments : List Expr → List Expr
  | [] => []
  | argument :: rest => argument.signed :: signedArguments rest

end

mutual

/-- **What is read back**: negative numbers are negations, and the operands that are written in
parentheses are in parentheses. -/
def reread : Expr → Expr
  | num value => signedNumber value
  | var name => var name
  | group inner => group inner.reread
  | neg operand => neg (wrap operand.needsParensAfterSign operand.reread)
  | trailingNeg operand => trailingNeg (wrap operand.needsParensAfterSign operand.reread)
  | binary op left right =>
    binary op (wrap (left.needsParens op .left) left.reread)
      (wrap (right.needsParens op .right) right.reread)
  | call name arguments => call name (rereadArguments arguments)

def rereadArguments : List Expr → List Expr
  | [] => []
  | argument :: rest => argument.reread :: rereadArguments rest

end

mutual

/-- **Without parentheses.** -/
def ungrouped : Expr → Expr
  | num value => num value
  | var name => var name
  | group inner => inner.ungrouped
  | neg operand => neg operand.ungrouped
  | trailingNeg operand => trailingNeg operand.ungrouped
  | binary op left right => binary op left.ungrouped right.ungrouped
  | call name arguments => call name (ungroupedArguments arguments)

def ungroupedArguments : List Expr → List Expr
  | [] => []
  | argument :: rest => argument.ungrouped :: ungroupedArguments rest

end

theorem signedArguments_eq (arguments : List Expr) :
    signedArguments arguments = arguments.map signed := by
  induction arguments with
  | nil => rfl
  | cons e rest ih => rw [signedArguments, ih, List.map_cons]

theorem rereadArguments_eq (arguments : List Expr) :
    rereadArguments arguments = arguments.map reread := by
  induction arguments with
  | nil => rfl
  | cons e rest ih => rw [rereadArguments, ih, List.map_cons]

theorem ungroupedArguments_eq (arguments : List Expr) :
    ungroupedArguments arguments = arguments.map ungrouped := by
  induction arguments with
  | nil => rfl
  | cons e rest ih => rw [ungroupedArguments, ih, List.map_cons]

@[simp] theorem ungrouped_wrap (wanted : Bool) (e : Expr) :
    (wrap wanted e).ungrouped = e.ungrouped := by
  cases wanted with
  | false => rfl
  | true => rw [wrap, if_pos rfl, ungrouped]

mutual

/-- **Only parentheses are added** to the tree with its negative numbers replaced. -/
theorem ungrouped_reread (e : Expr) : e.reread.ungrouped = e.signed.ungrouped := by
  match e with
  | num _ | var _ => rfl
  | group inner =>
    simp only [reread, signed, ungrouped]
    exact ungrouped_reread inner
  | neg operand | trailingNeg operand =>
    simp only [reread, signed, ungrouped, ungrouped_wrap]
    rw [ungrouped_reread operand]
  | binary op left right =>
    simp only [reread, signed, ungrouped, ungrouped_wrap]
    rw [ungrouped_reread left, ungrouped_reread right]
  | call name arguments =>
    simp only [reread, signed, ungrouped]
    rw [ungroupedArguments_reread arguments]

theorem ungroupedArguments_reread (arguments : List Expr) :
    ungroupedArguments (rereadArguments arguments) =
      ungroupedArguments (signedArguments arguments) := by
  match arguments with
  | [] => rfl
  | argument :: rest =>
    simp only [rereadArguments, signedArguments, ungroupedArguments]
    rw [ungrouped_reread argument, ungroupedArguments_reread rest]

end

mutual

/-- Parentheses make no difference to signs. -/
theorem ungrouped_signed (e : Expr) : e.signed.ungrouped = e.ungrouped.signed := by
  match e with
  | num value =>
    rw [signed, ungrouped, signed, signedNumber]
    cases (Binary64.ofFloat value).isNegative <;> rfl
  | var _ => rfl
  | group inner => rw [signed, ungrouped, ungrouped, ungrouped_signed inner]
  | neg operand | trailingNeg operand =>
    rw [signed, ungrouped, ungrouped, signed, ungrouped_signed operand]
  | binary op left right =>
    rw [signed, ungrouped, ungrouped, signed, ungrouped_signed left, ungrouped_signed right]
  | call name arguments =>
    rw [signed, ungrouped, ungrouped, signed, ungroupedArguments_signed arguments]

theorem ungroupedArguments_signed (arguments : List Expr) :
    ungroupedArguments (signedArguments arguments) =
      signedArguments (ungroupedArguments arguments) := by
  match arguments with
  | [] => rfl
  | e :: rest =>
    rw [signedArguments, ungroupedArguments, ungroupedArguments, signedArguments,
      ungrouped_signed e, ungroupedArguments_signed rest]

end

/-! ### Parentheses that are needed -/

theorem needsParens_signedNumber (value : Float) (op : BinaryOp) (side : Side) :
    (signedNumber value).needsParens op side = (num value).needsParens op side := by
  rw [signedNumber, needsParens]
  cases hsign : (Binary64.ofFloat value).isNegative with
  | true => rfl
  | false => rw [if_neg Bool.false_ne_true, needsParens, hsign]

theorem needsParensAfterSign_signedNumber (value : Float) :
    (signedNumber value).needsParensAfterSign = (num value).needsParensAfterSign := by
  rw [signedNumber]
  cases (Binary64.ofFloat value).isNegative <;> rfl

/-- A negation needs parentheses where a negative number needs them. -/
theorem needsParens_signed (e : Expr) (op : BinaryOp) (side : Side) :
    e.signed.needsParens op side = e.needsParens op side := by
  cases e with
  | num value => exact needsParens_signedNumber value op side
  | binary => rw [signed, needsParens, needsParens]
  | var | group | neg | trailingNeg | call => rfl

theorem needsParensAfterSign_signed (e : Expr) :
    e.signed.needsParensAfterSign = e.needsParensAfterSign := by
  cases e with
  | num value => exact needsParensAfterSign_signedNumber value
  | var | group | neg | trailingNeg | binary | call => rfl

/-- What is read back needs parentheses where the tree needs them. -/
theorem needsParens_reread (e : Expr) (op : BinaryOp) (side : Side) :
    e.reread.needsParens op side = e.needsParens op side := by
  cases e with
  | num value => exact needsParens_signedNumber value op side
  | binary => rw [reread, needsParens, needsParens]
  | var | group | neg | trailingNeg | call => rfl

theorem needsParensAfterSign_reread (e : Expr) :
    e.reread.needsParensAfterSign = e.needsParensAfterSign := by
  cases e with
  | num value => exact needsParensAfterSign_signedNumber value
  | var | group | neg | trailingNeg | binary | call => rfl

end Expr

/-! ### How trees are derived -/

namespace Grammar.Rule

/-- The rule that derives binary operations. -/
def ofOperator : BinaryOp → Rule
  | .add | .subtract => expression
  | .multiply | .divide | .modulo => term
  | .power => factor

/-- The rule that derives an operand on a side. -/
def ofOperand : BinaryOp → Side → Rule
  | .add, .left | .subtract, .left => expression
  | .add, .right | .subtract, .right => term
  | .multiply, .left | .divide, .left | .modulo, .left => term
  | .multiply, .right | .divide, .right | .modulo, .right => factor
  | .power, .left => primary
  | .power, .right => factor

/-- The rule that derives a tree from the lexemes of its text. -/
def ofExpr : Expr → Rule
  | .num value => if (Binary64.ofFloat value).isNegative then factor else primary
  | .neg _ => factor
  | .binary op _ _ => ofOperator op
  | .var _ | .group _ | .trailingNeg _ | .call _ _ => primary

/-- **Parentheses are left out** just where the tree is derived without them. -/
theorem needsParens_eq_false_iff {operand : Expr} {op : BinaryOp} {side : Side} :
    operand.needsParens op side = false ↔ (ofOperand op side).rank ≤ (ofExpr operand).rank := by
  cases operand with
  | num value =>
    rw [Expr.needsParens, ofExpr]
    cases (Binary64.ofFloat value).isNegative <;> cases op <;> cases side <;> decide
  | binary inner _ _ =>
    rw [Expr.needsParens, ofExpr]
    cases inner <;> cases op <;> cases side <;> decide
  | neg _ =>
    rw [Expr.needsParens, ofExpr]
    cases op <;> cases side <;> decide
  | var _ | group _ | trailingNeg _ | call _ _ => exact iff_of_true rfl (rank_le_primary _)

theorem needsParensAfterSign_eq_false_iff {operand : Expr} :
    operand.needsParensAfterSign = false ↔ factor.rank ≤ (ofExpr operand).rank := by
  cases operand with
  | num value =>
    rw [ofExpr]
    refine iff_of_true rfl ?_
    cases (Binary64.ofFloat value).isNegative with
    | false => decide
    | true => decide
  | binary op _ _ =>
    rw [Expr.needsParensAfterSign, ofExpr]
    cases op <;> decide
  | neg _ => exact iff_of_true rfl (Nat.le_refl _)
  | var _ | group _ | trailingNeg _ | call _ _ => exact iff_of_true rfl (rank_le_primary _)

namespace Derived

variable {ls ls' : List Lexeme} {e e' : Expr} {r r' : Rule}

/-- An operand that is put in parentheses if it has to be. -/
theorem wrap (h : Derived ls e r) {wanted : Bool} (hle : wanted = false → r'.rank ≤ r.rank) :
    Derived (Expr.parenthesizeLexemes wanted ls) (Expr.wrap wanted e) r' := by
  cases wanted with
  | false => exact h.weaken (hle rfl)
  | true =>
    have hexpression : Derived ls e .expression := h.weaken (Nat.zero_le _)
    exact hexpression.group.weaken (rank_le_primary r')

theorem binary {op : BinaryOp} (h : Derived ls e (ofOperand op .left))
    (h' : Derived ls' e' (ofOperand op .right)) :
    Derived (ls ++ .symbol op.symbol :: ls') (.binary op e e') (ofOperator op) := by
  cases op with
  | add | subtract => exact h.sum rfl h'
  | multiply | divide | modulo => exact h.product rfl h'
  | power => exact h.power h'

end Derived

end Grammar.Rule

namespace Expr

open Grammar Rule

theorem derived_number {value : Float} (hfinite : value.isFinite = true) :
    Derived (numberLexemes value) (signedNumber value) (ofExpr (num value)) := by
  have hnumber : numberValue (Decimal.plain value.abs) = value.abs := by
    rw [numberValue, Decimal.read?_plain_abs hfinite]
    rfl
  have habs : Derived [.number (Decimal.plain value.abs)] (num value.abs) .primary := by
    refine ⟨.number (Decimal.plain value.abs), rfl, ?_⟩
    rw [Primary.tree, hnumber]
  rw [numberLexemes, signedNumber, ofExpr]
  cases hsign : (Binary64.ofFloat value).isNegative with
  | false =>
    rw [Binary64.abs_eq_self hfinite hsign] at habs ⊢
    exact habs
  | true => exact habs.factor_of_primary.neg

/-- The arguments after the first, if each argument is derived. -/
theorem exists_argumentTail {arguments : List Expr}
    (h : ∀ e ∈ arguments, Derived e.lexemes e.reread .expression) (first : Expr) :
    ∃ d : ArgumentTail, first.lexemes ++ d.lexemes = argumentLexemes (first :: arguments) ∧
      d.trees = rereadArguments arguments := by
  induction arguments generalizing first with
  | nil => exact ⟨.nil, List.append_nil _, rfl⟩
  | cons e rest ih =>
    obtain ⟨argument, hlexemes, htree⟩ := h e List.mem_cons_self
    obtain ⟨d, hd, htrees⟩ := ih (fun x hx => h x (List.mem_cons_of_mem e hx)) e
    refine ⟨.cons argument d, ?_, ?_⟩
    · rw [ArgumentTail.lexemes, hlexemes, hd, argumentLexemes_cons_cons]
    · rw [ArgumentTail.trees, htree, htrees, rereadArguments]

theorem derived_call (name : String) {arguments : List Expr}
    (h : ∀ e ∈ arguments, Derived e.lexemes e.reread .expression) :
    Derived (call name arguments).lexemes (call name arguments).reread .primary := by
  rw [lexemes, reread]
  cases arguments with
  | nil => exact ⟨.call name .empty, rfl, rfl⟩
  | cons first rest =>
    obtain ⟨argument, hlexemes, htree⟩ := h first List.mem_cons_self
    obtain ⟨d, hd, htrees⟩ :=
      exists_argumentTail (fun x hx => h x (List.mem_cons_of_mem first hx)) first
    refine ⟨.call name (.list argument d), ?_, ?_⟩
    · rw [Primary.lexemes, Arguments.lexemes, hlexemes, hd]
    · rw [Primary.tree, Arguments.trees, htree, htrees, rereadArguments]

/-- **Every tree is derived** from the lexemes of its text, with the parentheses that they add. -/
theorem Legible.derived {e : Expr} (h : e.Legible) : Derived e.lexemes e.reread (ofExpr e) := by
  induction h with
  | num hfinite =>
    rw [lexemes, reread]
    exact derived_number hfinite
  | @var name _ => exact ⟨.name name, rfl, rfl⟩
  | group _ ih =>
    rw [lexemes, reread]
    exact (ih.weaken (Nat.zero_le _)).group
  | neg _ ih =>
    rw [lexemes, reread]
    exact (ih.wrap needsParensAfterSign_eq_false_iff.mp).neg
  | @binary op _ _ _ _ ihl ihr =>
    rw [lexemes, reread]
    exact (ihl.wrap needsParens_eq_false_iff.mp).binary (ihr.wrap needsParens_eq_false_iff.mp)
  | call _ _ ih => exact derived_call _ fun e he => (ih e he).weaken (Nat.zero_le _)

/-- The text of a tree is derived as what is read back. -/
theorem Legible.exists_derives {e : Expr} (h : e.Legible) :
    ∃ d : Expression, Derives e.print d ∧ d.tree = e.reread := by
  obtain ⟨d, hlexemes, htree⟩ : Derived e.lexemes e.reread .expression :=
    h.derived.weaken (Nat.zero_le _)
  refine ⟨d, ?_, htree⟩
  rw [Derives, h.lexemes_scan_print, hlexemes]

/-- **What is printed is read back**, unless it is too deep: the tree has a negation for each
negative number and parentheses where they were added, and nothing else is changed. -/
theorem parse_print {e : Expr} (he : e.Legible)
    (hdeep : ∀ limit span, parse e.print ≠ .error (.tooDeep limit span)) :
    parse e.print = .ok e.reread ∧ e.reread.ungrouped = e.signed.ungrouped := by
  obtain ⟨d, hd, htree⟩ := he.exists_derives
  refine ⟨?_, ungrouped_reread e⟩
  rw [← htree]
  rcases parse_or_tooDeep_of_derives hd with hparse | ⟨span, hspan⟩
  · exact hparse
  · exact absurd hspan (hdeep maxNesting span)

/-- Negative numbers below a power and on the right of a difference, a negated base, a power as a
base, and a call with a chain on the right. -/
theorem parse_print_call :
    let base := binary .power (binary .power (num (-2.5)) (num 3.0)) (neg (var "x"))
    let e := binary .multiply (binary .subtract (num (-0.0)) (binary .subtract base (num (-7.0))))
      (call "f" [binary .power (neg (num 1.0)) base, binary .add (var "y") (neg base)])
    e.Legible ∧ (∀ limit span, parse e.print ≠ .error (.tooDeep limit span)) ∧
      parse e.print = .ok e.reread ∧ e.reread.ungrouped = e.signed.ungrouped := by
  intro base e
  have hnum (x : Float) (hfinite : x.isFinite = true) : (num x).Legible := .num hfinite
  have hname (s : String) (hs : IsName s) : (var s).Legible := .var hs
  have hbase : base.Legible :=
    .binary (.binary (hnum _ (by decide +kernel))
      (hnum _ (by decide +kernel))) (.neg (hname _ (by decide +kernel)))
  have harguments : ∀ a ∈ [binary .power (neg (num 1.0)) base, binary .add (var "y") (neg base)],
      a.Legible := by
    intro a ha
    rcases List.mem_cons.mp ha with rfl | ha
    · exact .binary (.neg (hnum _ (by decide +kernel))) hbase
    · rw [List.mem_singleton.mp ha]
      exact .binary (hname _ (by decide +kernel)) (.neg hbase)
  have he : e.Legible :=
    .binary (.binary (hnum _ (by decide +kernel))
      (.binary hbase (hnum _ (by decide +kernel))))
      (.call (by decide +kernel) harguments)
  have hdeep : ∀ limit span, parse e.print ≠ .error (.tooDeep limit span) := by
    have hparses : (parse e.print).isOk = true := by
      subst e base
      decide +kernel
    intro limit span hspan
    rw [hspan] at hparses
    cases hparses
  exact ⟨he, hdeep, parse_print he hdeep⟩

end Expr

end Abacus
