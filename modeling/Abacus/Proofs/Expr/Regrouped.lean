import Abacus.Proofs.Expr.Standing

/-!
# How the lexemes of a tree are grouped

The lexemes that a tree stands for may be grouped in another way when they are read.  They are read
all the same: any tree has the lexemes of a tree in canonical form, and it is the canonical one that
is read.

The canonical tree is found from the right.  Something comes before a canonical tree, which is a
minus sign, or an operand and its operator.  Then it goes down the left of that tree until it meets
what binds tightly enough to be its operand.

## Main definitions

* `Expr.Signless`: trees that can be read back, with no minus sign in a number
* `Expr.Canonical`: those of them that are written as they stand
* `Expr.Groups`: lexemes that canonical trees stand for, alone and before an operator

## Main results

* `Expr.Canonical.parse_or_tooDeep`: canonical trees are read
* `Expr.exists_canonical_prefixed`: what comes before a canonical tree
* `Expr.Signless.groups`: every tree stands for what a canonical tree stands for
-/

namespace Abacus

namespace Expr

open Grammar Rule

/-- **Trees that can be read back**, with no minus sign in a number. -/
inductive Signless : Expr → Prop
  | num {value : Float} : value.isFinite = true → (Binary64.ofFloat value).isNegative = false →
    Signless (.num value)
  | var {name : String} : IsName name → Signless (.var name)
  | group {inner : Expr} : Signless inner → Signless (.group inner)
  | neg {operand : Expr} : Signless operand → Signless (.neg operand)
  | binary {op : BinaryOp} {left right : Expr} : Signless left → Signless right →
    Signless (.binary op left right)
  | call {name : String} {arguments : List Expr} : IsName name →
    (∀ e ∈ arguments, Signless e) → Signless (.call name arguments)

namespace Signless

variable {e : Expr}

theorem legible (h : e.Signless) : e.Legible := by
  induction h with
  | num hfinite _ => exact .num hfinite
  | var hname => exact .var hname
  | group _ ih => exact .group ih
  | neg _ ih => exact .neg ih
  | binary _ _ ihl ihr => exact .binary ihl ihr
  | call hname _ ih => exact .call hname ih

/-- There is no sign to be split off. -/
theorem signed_eq (h : e.Signless) : e.signed = e := by
  induction h with
  | num _ hsign => exact signedNumber_eq_num hsign
  | var _ => rfl
  | group _ ih | neg _ ih => rw [signed, ih]
  | binary _ _ ihl ihr => rw [signed, ihl, ihr]
  | call _ _ ih => rw [signed, signedArguments_eq, List.map_congr_left ih, List.map_id']

/-- In parentheses, if asked. -/
theorem wrap (h : e.Signless) (wanted : Bool) : (Expr.wrap wanted e).Signless := by
  cases wanted with
  | false => exact h
  | true => exact .group h

end Signless

/-- What is read back has no sign in a number. -/
theorem Legible.signless_reread {e : Expr} (h : e.Legible) : e.reread.Signless := by
  induction h with
  | @num value hfinite =>
    rw [reread, signedNumber]
    cases hsign : (Binary64.ofFloat value).isNegative with
    | false => exact .num hfinite hsign
    | true =>
      exact .neg (.num (Binary64.isFinite_abs hfinite) (Binary64.isNegative_abs hfinite))
  | var hname => exact .var hname
  | group _ ih =>
    rw [reread]
    exact .group ih
  | neg _ ih =>
    rw [reread]
    exact .neg (ih.wrap _)
  | binary _ _ ihl ihr =>
    rw [reread]
    exact .binary (ihl.wrap _) (ihr.wrap _)
  | call hname _ ih =>
    rw [reread, rereadArguments_eq]
    exact .call hname (List.forall_mem_map.mpr ih)

/-! ### Canonical trees -/

/-- **A tree in canonical form** is what its lexemes are read as. -/
structure Canonical (e : Expr) : Prop where
  verbatim : e.Verbatim
  signless : e.Signless

namespace Canonical

variable {e left right : Expr} {op : BinaryOp}

theorem group (h : e.Canonical) : (Expr.group e).Canonical :=
  ⟨.group h.verbatim, .group h.signless⟩

theorem neg (h : e.Canonical) (hrank : factor.rank ≤ (ofExpr e).rank) :
    (Expr.neg e).Canonical :=
  ⟨.neg h.verbatim (needsParensAfterSign_eq_false_iff.mpr hrank), .neg h.signless⟩

theorem binary (hleft : left.Canonical) (hright : right.Canonical)
    (hrank : (ofOperand op .left).rank ≤ (ofExpr left).rank)
    (hrank' : (ofOperand op .right).rank ≤ (ofExpr right).rank) :
    (Expr.binary op left right).Canonical :=
  ⟨.binary hleft.verbatim hright.verbatim (needsParens_eq_false_iff.mpr hrank)
    (needsParens_eq_false_iff.mpr hrank'), .binary hleft.signless hright.signless⟩

/-- The operands of a canonical tree. -/
theorem operands (h : (Expr.binary op left right).Canonical) :
    left.Canonical ∧ right.Canonical ∧ (ofOperand op .left).rank ≤ (ofExpr left).rank ∧
      (ofOperand op .right).rank ≤ (ofExpr right).rank := by
  obtain ⟨hverbatim, hsignless⟩ := h
  cases hverbatim with
  | binary hleft hright hparens hparens' =>
    cases hsignless with
    | binary hleft' hright' =>
      exact ⟨⟨hleft, hleft'⟩, ⟨hright, hright'⟩, needsParens_eq_false_iff.mp hparens,
        needsParens_eq_false_iff.mp hparens'⟩

/-- Only operations are looser than a factor. -/
theorem exists_binary (h : e.Canonical) (hrank : (ofExpr e).rank < factor.rank) :
    ∃ op left right, e = .binary op left right := by
  obtain ⟨hverbatim, -⟩ := h
  cases hverbatim with
  | binary => exact ⟨_, _, _, rfl⟩
  | num hvalue =>
    rw [ofExpr, hvalue.isNegative_eq] at hrank
    exact absurd hrank (Nat.not_lt.mpr (rank_le_primary factor))
  | var | group | call => exact absurd hrank (Nat.not_lt.mpr (rank_le_primary factor))
  | neg => exact absurd hrank (lt_irrefl _)

/-- **Canonical trees are read**, from any text with their lexemes. -/
theorem parse_or_tooDeep (h : e.Canonical) {text : String} (htext : Reads text e.standing) :
    parse text = .ok e ∨ ∃ span, parse text = .error (.tooDeep maxNesting span) := by
  obtain ⟨d, hlexemes, htree⟩ : Derived e.lexemes e.reread .expression :=
    h.signless.legible.derived.weaken (Nat.zero_le _)
  have hderives : Derives text d := by
    have hscan := htext [] separated_nil
    rw [List.append_nil, lexemesOf_nil] at hscan
    rw [Derives, lexemes_scan, hscan, hlexemes, h.verbatim.lexemes_eq]
  rw [← h.verbatim.reread_eq, ← htree]
  exact parse_or_tooDeep_of_derives hderives

end Canonical

/-! ### Grouping -/

/-- A chain nests to the left. -/
theorem rank_ofOperand_left {op : BinaryOp} (h : (ofOperator op).rank < factor.rank) :
    (ofOperand op .left).rank = (ofOperator op).rank := by
  cases op with
  | power => exact absurd h (lt_irrefl _)
  | add | subtract | multiply | divide | modulo => rfl

/-- **Something comes before a canonical tree.**  It takes an operand as tight as the rule `r`, and
makes of it what the rule `r'` derives, which is looser by a step at most.  A tree that is looser
than `r` is an operation; then the left operand is taken. -/
theorem exists_canonical_prefixed {before : List Lexeme} {r r' : Rule}
    (hjoin : ∀ e : Expr, e.Canonical → r.rank ≤ (ofExpr e).rank →
      ∃ e' : Expr, e'.Canonical ∧ e'.standing = before ++ e.standing ∧ ofExpr e' = r')
    (hfactor : r.rank ≤ factor.rank) (hstep : r.rank ≤ r'.rank + 1) {e : Expr}
    (h : e.Canonical) :
    ∃ e' : Expr, e'.Canonical ∧ e'.standing = before ++ e.standing ∧
      min r'.rank (ofExpr e).rank ≤ (ofExpr e').rank := by
  rcases Nat.lt_or_ge (ofExpr e).rank r.rank with hrank | hrank
  -- too loose to be taken as a whole
  · have hloose := Nat.lt_of_lt_of_le hrank hfactor
    obtain ⟨op, left, right, rfl⟩ := h.exists_binary hloose
    obtain ⟨hleft, hright, hoperand, hoperand'⟩ := h.operands
    obtain ⟨left', hleft', hstanding, hle⟩ := exists_canonical_prefixed hjoin hfactor hstep hleft
    -- what is made of the left operand is tight enough for the operator
    have htight : (ofOperand op .left).rank ≤ r'.rank := by
      rw [rank_ofOperand_left hloose]
      exact Nat.le_of_lt_succ (Nat.lt_of_lt_of_le hrank hstep)
    refine ⟨.binary op left' right, hleft'.binary hright ?_ hoperand', ?_, Nat.min_le_right _ _⟩
    · exact (Nat.le_min.mpr ⟨htight, hoperand⟩).trans hle
    · rw [standing, standing, hstanding, List.append_assoc]
  · obtain ⟨e', he', hstanding, hrule⟩ := hjoin e h hrank
    exact ⟨e', he', hstanding, hrule ▸ Nat.min_le_left _ _⟩
termination_by sizeOf e

/-- A minus sign comes before a canonical tree. -/
theorem Canonical.exists_minus {e : Expr} (h : e.Canonical) :
    ∃ e' : Expr, e'.Canonical ∧ e'.standing = .symbol .minus :: e.standing := by
  have hjoin (e : Expr) (he : e.Canonical) (hrank : factor.rank ≤ (ofExpr e).rank) :
      ∃ e' : Expr, e'.Canonical ∧ e'.standing = [.symbol .minus] ++ e.standing ∧
        ofExpr e' = factor :=
    ⟨.neg e, he.neg hrank, rfl, rfl⟩
  obtain ⟨e', he', hstanding, -⟩ :=
    exists_canonical_prefixed hjoin (le_refl _) (Nat.le_succ _) h
  exact ⟨e', he', hstanding⟩

/-- An operand and an operator come before a canonical tree. -/
theorem Canonical.exists_operation {left right : Expr} (hleft : left.Canonical)
    (hprimary : ofExpr left = primary) (op : BinaryOp) (hright : right.Canonical) :
    ∃ e : Expr, e.Canonical ∧
      e.standing = left.standing ++ .symbol op.symbol :: right.standing := by
  have hjoin (e : Expr) (he : e.Canonical)
      (hrank : (ofOperand op .right).rank ≤ (ofExpr e).rank) :
      ∃ e' : Expr, e'.Canonical ∧
        e'.standing = (left.standing ++ [.symbol op.symbol]) ++ e.standing ∧
          ofExpr e' = ofOperator op := by
    refine ⟨.binary op left e, hleft.binary he ?_ hrank, ?_, rfl⟩
    · rw [hprimary]
      exact rank_le_primary _
    · rw [standing, List.append_assoc, List.singleton_append]
  have hfactor : (ofOperand op .right).rank ≤ factor.rank := by cases op <;> decide
  have hstep : (ofOperand op .right).rank ≤ (ofOperator op).rank + 1 := by cases op <;> decide
  obtain ⟨e, he, hstanding, -⟩ := exists_canonical_prefixed hjoin hfactor hstep hright
  rw [List.append_assoc, List.singleton_append] at hstanding
  exact ⟨e, he, hstanding⟩

/-- **Lexemes that are grouped**: a canonical tree stands for them, and one does if an operator and
the lexemes of a canonical tree come after them. -/
structure Groups (ls : List Lexeme) : Prop where
  alone : ∃ e : Expr, e.Canonical ∧ e.standing = ls
  before (op : BinaryOp) {right : Expr} : right.Canonical →
    ∃ e : Expr, e.Canonical ∧ e.standing = ls ++ .symbol op.symbol :: right.standing

theorem Canonical.groups {e : Expr} (h : e.Canonical) (hprimary : ofExpr e = primary) :
    Groups e.standing :=
  ⟨⟨e, h, rfl⟩, fun op _ hright => h.exists_operation hprimary op hright⟩

namespace Groups

variable {ls ls' : List Lexeme}

theorem minus (h : Groups ls) : Groups (.symbol .minus :: ls) := by
  constructor
  · obtain ⟨e, he, rfl⟩ := h.alone
    exact he.exists_minus
  · intro op right hright
    obtain ⟨e, he, hstanding⟩ := h.before op hright
    rw [List.cons_append, ← hstanding]
    exact he.exists_minus

/-- An operation is grouped from its right operand on. -/
theorem operation (h : Groups ls) (op : BinaryOp) (h' : Groups ls') :
    Groups (ls ++ .symbol op.symbol :: ls') := by
  constructor
  · obtain ⟨e, he, rfl⟩ := h'.alone
    -- the canonical tree of the right operand comes after the left one
    exact h.before op he
  · intro op' right hright
    obtain ⟨e, he, hstanding⟩ := h'.before op' hright
    rw [List.append_assoc, List.cons_append, ← hstanding]
    exact h.before op he

end Groups

/-- Arguments, if each of them stands for what a canonical tree stands for. -/
theorem exists_canonical_arguments {arguments : List Expr}
    (h : ∀ e ∈ arguments, ∃ e' : Expr, e'.Canonical ∧ e'.standing = e.standing) :
    ∃ arguments' : List Expr, (∀ e ∈ arguments', e.Canonical) ∧
      arguments'.map standing = arguments.map standing := by
  induction arguments with
  | nil => exact ⟨[], nofun, rfl⟩
  | cons e rest ih =>
    obtain ⟨e', he', hstanding⟩ := h e List.mem_cons_self
    obtain ⟨rest', hrest', hstanding'⟩ := ih fun x hx => h x (List.mem_cons_of_mem e hx)
    refine ⟨e' :: rest', List.forall_mem_cons.mpr ⟨he', hrest'⟩, ?_⟩
    rw [List.map_cons, List.map_cons, hstanding, hstanding']

/-- **The lexemes of a tree are grouped**, if not as the tree then as another one. -/
theorem Signless.groups {e : Expr} (h : e.Signless) : Groups e.standing := by
  induction h with
  | @num value hfinite hsign =>
    refine Canonical.groups ⟨.num (.finite hfinite hsign), .num hfinite hsign⟩ ?_
    rw [ofExpr, hsign]
    rfl
  | var hname => exact Canonical.groups ⟨.var hname, .var hname⟩ rfl
  | group _ ih =>
    obtain ⟨inner, hinner, hstanding⟩ := ih.alone
    rw [standing, ← hstanding]
    exact hinner.group.groups rfl
  | neg _ ih => exact ih.minus
  | @binary op _ _ _ _ ihl ihr => exact ihl.operation op ihr
  | @call name arguments hname _ ih =>
    obtain ⟨arguments', harguments', hstanding⟩ :=
      exists_canonical_arguments fun e he => (ih e he).alone
    have hcall : (Expr.call name arguments').Canonical :=
      ⟨.call hname fun e he => (harguments' e he).verbatim,
        .call hname fun e he => (harguments' e he).signless⟩
    rw [standing, standingArguments_eq, ← hstanding, ← standingArguments_eq]
    exact hcall.groups rfl

end Expr

end Abacus
