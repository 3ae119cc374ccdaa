import Abacus.Proofs.Expr.Verbatim
import Mathlib.Data.List.Forall2

/-!
# Parsed expressions are read back

A text that was parsed has a derivation.  The text of its tree has nearly the same one: plus signs
are gone, since they leave nothing in a tree, and numbers are spelled by their values.  Neither
takes more levels than before, so that the text is not too deep.

A number that is too large for a double is read back as a name.  All else is read back as it was.

## Main definitions

* `Grammar.Expression.respelled`: the derivation of the text that is written
* `Grammar.Rule.Writes`: what is written for a tree where a rule is called for

## Main results

* `Grammar.Expression.levels_respelled_le`: it takes no more levels
* `Grammar.Expression.writes`: it has the lexemes of the text and stands for what is read back
* `Expr.parse_print_of_parse`: parsed expressions are written so that they are read back
-/

namespace Abacus

namespace Grammar

/-! ### What is written -/

/-- A number spelled by its value: in digits if it is finite, and else as a word. -/
def Primary.ofNumber (value : Float) : Primary :=
  if value.isFinite then .number (Decimal.plain value) else .name (Decimal.plain value)

mutual

/-- **The derivation of the text that is written**: without plus signs, and with numbers spelled by
their values. -/
def Expression.respelled : Expression → Expression
  | .chain first rest => .chain first.respelled rest.respelled

def SumTail.respelled : SumTail → SumTail
  | .nil => .nil
  | .cons op isSum operand rest => .cons op isSum operand.respelled rest.respelled

def Term.respelled : Term → Term
  | .chain first rest => .chain first.respelled rest.respelled

def ProductTail.respelled : ProductTail → ProductTail
  | .nil => .nil
  | .cons op isProduct operand rest => .cons op isProduct operand.respelled rest.respelled

def Factor.respelled : Factor → Factor
  | .plus operand => operand.respelled
  | .minus operand => .minus operand.respelled
  | .primary p => .primary p.respelled
  | .power base exponent => .power base.respelled exponent.respelled

def Primary.respelled : Primary → Primary
  | .number digits => .ofNumber (numberValue digits)
  | .name text => .name text
  | .call text arguments => .call text arguments.respelled
  | .group inner => .group inner.respelled

def Arguments.respelled : Arguments → Arguments
  | .empty => .empty
  | .list first rest => .list first.respelled rest.respelled

def ArgumentTail.respelled : ArgumentTail → ArgumentTail
  | .nil => .nil
  | .cons argument rest => .cons argument.respelled rest.respelled

end

/-! ### Levels -/

theorem chainLevels_mono {ns ns' : List Nat} (h : List.Forall₂ (· ≤ ·) ns ns') (before : Nat) :
    chainLevels before ns ≤ chainLevels before ns' := by
  induction h generalizing before with
  | nil => exact Nat.le_refl _
  | cons hle _ ih => exact max_le_max (by omega) (ih (before + 1))

mutual

/-- **No more levels are taken** by what is written. -/
theorem Expression.levels_respelled_le (d : Expression) : d.respelled.levels ≤ d.levels := by
  match d with
  | .chain (.chain first products) sums =>
    have hoperands := List.rel_append products.operandLevels_respelled sums.operandLevels_respelled
    exact max_le_max first.levels_respelled_le (chainLevels_mono hoperands 0)

theorem SumTail.operandLevels_respelled (d : SumTail) :
    List.Forall₂ (· ≤ ·) d.respelled.operandLevels d.operandLevels := by
  match d with
  | .nil => exact .nil
  | .cons op isSum operand rest =>
    exact .cons operand.levels_respelled_le rest.operandLevels_respelled

theorem Term.levels_respelled_le (d : Term) : d.respelled.levels ≤ d.levels := by
  match d with
  | .chain first rest =>
    exact max_le_max first.levels_respelled_le (chainLevels_mono rest.operandLevels_respelled 0)

theorem ProductTail.operandLevels_respelled (d : ProductTail) :
    List.Forall₂ (· ≤ ·) d.respelled.operandLevels d.operandLevels := by
  match d with
  | .nil => exact .nil
  | .cons op isProduct operand rest =>
    exact .cons operand.levels_respelled_le rest.operandLevels_respelled

theorem Factor.levels_respelled_le (d : Factor) : d.respelled.levels ≤ d.levels := by
  match d with
  | .plus operand => exact Nat.le_succ_of_le operand.levels_respelled_le
  | .minus operand => exact Nat.succ_le_succ operand.levels_respelled_le
  | .primary p => exact Nat.succ_le_succ p.levels_respelled_le
  | .power base exponent =>
    exact Nat.succ_le_succ (max_le_max base.levels_respelled_le exponent.levels_respelled_le)

theorem Primary.levels_respelled_le (d : Primary) : d.respelled.levels ≤ d.levels := by
  match d with
  | .number digits =>
    rw [Primary.respelled, Primary.ofNumber]
    split <;> exact Nat.le_refl _
  | .name _ => exact Nat.le_refl _
  | .call _ arguments => exact arguments.levels_respelled_le
  | .group inner => exact inner.levels_respelled_le

theorem Arguments.levels_respelled_le (d : Arguments) : d.respelled.levels ≤ d.levels := by
  match d with
  | .empty => exact Nat.le_refl _
  | .list first rest => exact max_le_max first.levels_respelled_le rest.levels_respelled_le

theorem ArgumentTail.levels_respelled_le (d : ArgumentTail) : d.respelled.levels ≤ d.levels := by
  match d with
  | .nil => exact Nat.le_refl _
  | .cons argument rest =>
    exact max_le_max argument.levels_respelled_le rest.levels_respelled_le

end

/-! ### Lexemes and trees -/

theorem Primary.ofNumber_spec {value : Float} (h : Unsigned value) :
    (ofNumber value).lexemes = (Expr.num value).infNamed.lexemes ∧
      (ofNumber value).tree = (Expr.num value).infNamed := by
  rw [ofNumber, Expr.infNamed]
  cases hfinite : value.isFinite with
  | false => exact ⟨rfl, rfl⟩
  | true =>
    obtain ⟨-, hread⟩ := h.read?_plain hfinite
    simp only [if_true]
    constructor
    · rw [Primary.lexemes, Expr.lexemes, Expr.numberLexemes, h.isNegative_eq,
        Binary64.abs_eq_self hfinite h.isNegative_eq]
      rfl
    · rw [Primary.tree, numberValue, hread, Option.getD_some]

namespace Rule

/-- **What is written where a rule is called for**: the lexemes of a tree, which stands there
without parentheses, and the tree that they are read as. -/
structure Writes (ls : List Lexeme) (t e : Expr) (r : Rule) : Prop where
  verbatim : e.Verbatim
  rank_le : r.rank ≤ (ofExpr e).rank
  lexemes_eq : ls = e.infNamed.lexemes
  tree_eq : t = e.infNamed

/-- What is written between the parentheses of a call. -/
structure WritesArguments (ls : List Lexeme) (ts es : List Expr) : Prop where
  verbatim : ∀ e ∈ es, e.Verbatim
  lexemes_eq : ls = Expr.argumentLexemes (Expr.infNamedArguments es)
  trees_eq : ts = Expr.infNamedArguments es

namespace Writes

variable {ls ls' : List Lexeme} {t t' e e' : Expr} {r r' : Rule} {op : BinaryOp}

theorem weaken (h : Writes ls t e r) (hle : r'.rank ≤ r.rank) : Writes ls t e r' :=
  ⟨h.verbatim, hle.trans h.rank_le, h.lexemes_eq, h.tree_eq⟩

theorem number {value : Float} (h : Unsigned value) :
    Writes (Primary.ofNumber value).lexemes (Primary.ofNumber value).tree (.num value)
      .primary := by
  obtain ⟨hlexemes, htree⟩ := Primary.ofNumber_spec h
  refine ⟨.num h, ?_, hlexemes, htree⟩
  rw [ofExpr, h.isNegative_eq]
  exact Nat.le_refl _

theorem name {text : String} (h : IsName text) :
    Writes [.name text] (.var text) (.var text) .primary :=
  ⟨.var h, Nat.le_refl _, rfl, rfl⟩

theorem group (h : Writes ls t e .expression) :
    Writes (.symbol .leftParen :: (ls ++ [.symbol .rightParen])) (.group t) (.group e)
      .primary := by
  refine ⟨.group h.verbatim, Nat.le_refl _, ?_, ?_⟩
  · rw [Expr.infNamed, Expr.lexemes, ← h.lexemes_eq]
    rfl
  · rw [Expr.infNamed, h.tree_eq]

theorem neg (h : Writes ls t e .factor) :
    Writes (.symbol .minus :: ls) (.neg t) (.neg e) .factor := by
  have hparens := needsParensAfterSign_eq_false_iff.mpr h.rank_le
  refine ⟨.neg h.verbatim hparens, Nat.le_refl _, ?_, ?_⟩
  · rw [Expr.infNamed, Expr.lexemes, h.verbatim.needsParensAfterSign_infNamed, hparens,
      ← h.lexemes_eq]
    rfl
  · rw [Expr.infNamed, h.tree_eq]

/-- Operands that are as tight as an operator calls for. -/
theorem binary (h : Writes ls t e (ofOperand op .left))
    (h' : Writes ls' t' e' (ofOperand op .right)) :
    Writes (ls ++ .symbol op.symbol :: ls') (.binary op t t') (.binary op e e')
      (ofOperator op) := by
  have hparens := needsParens_eq_false_iff.mpr h.rank_le
  have hparens' := needsParens_eq_false_iff.mpr h'.rank_le
  refine ⟨.binary h.verbatim h'.verbatim hparens hparens', Nat.le_refl _, ?_, ?_⟩
  · rw [Expr.infNamed, Expr.lexemes, h.verbatim.needsParens_infNamed, hparens,
      h'.verbatim.needsParens_infNamed, hparens', ← h.lexemes_eq, ← h'.lexemes_eq]
    rfl
  · rw [Expr.infNamed, h.tree_eq, h'.tree_eq]

theorem sum (isSum : op.precedence = .term) (h : Writes ls t e .expression)
    (h' : Writes ls' t' e' .term) :
    Writes (ls ++ .symbol op.symbol :: ls') (.binary op t t') (.binary op e e') .expression := by
  cases op with
  | add | subtract => exact binary h h'
  | multiply | divide | modulo | power => cases isSum

theorem product (isProduct : op.precedence = .factor) (h : Writes ls t e .term)
    (h' : Writes ls' t' e' .factor) :
    Writes (ls ++ .symbol op.symbol :: ls') (.binary op t t') (.binary op e e') .term := by
  cases op with
  | multiply | divide | modulo => exact binary h h'
  | add | subtract | power => cases isProduct

theorem power (h : Writes ls t e .primary) (h' : Writes ls' t' e' .factor) :
    Writes (ls ++ .symbol BinaryOp.power.symbol :: ls') (.binary .power t t')
      (.binary .power e e') .factor :=
  binary h h'

theorem single (h : Writes ls t e .expression) : WritesArguments ls [t] [e] := by
  refine ⟨List.forall_mem_singleton.mpr h.verbatim, h.lexemes_eq, ?_⟩
  rw [h.tree_eq]
  rfl

/-- One argument before others. -/
theorem cons {ts es : List Expr} (h : Writes ls t e .expression)
    (h' : WritesArguments ls' (t' :: ts) (e' :: es)) :
    WritesArguments (ls ++ .symbol .comma :: ls') (t :: t' :: ts) (e :: e' :: es) := by
  refine ⟨List.forall_mem_cons.mpr ⟨h.verbatim, h'.verbatim⟩, ?_, ?_⟩
  · rw [h.lexemes_eq, h'.lexemes_eq]
    exact (Expr.argumentLexemes_cons_cons _ _ _).symm
  · rw [h.tree_eq, h'.trees_eq]
    rfl

end Writes

theorem WritesArguments.call {text : String} {ls : List Lexeme} {ts es : List Expr}
    (h : WritesArguments ls ts es) (hname : IsName text) :
    Writes (.name text :: .symbol .leftParen :: (ls ++ [.symbol .rightParen])) (.call text ts)
      (.call text es) .primary := by
  refine ⟨.call hname h.verbatim, Nat.le_refl _, ?_, ?_⟩
  · rw [Expr.infNamed, Expr.lexemes, h.lexemes_eq]
  · rw [Expr.infNamed, h.trees_eq]

end Rule

open Rule

mutual

/-- **What is written for a derived tree** is the derivation respelled: a tree stands without
parentheses where its derivation has it, as that comes from the rule that is called for there. -/
theorem Expression.writes (d : Expression) (h : ∀ l ∈ d.lexemes, l.WellSpelled) :
    Writes d.respelled.lexemes d.respelled.tree d.tree .expression := by
  match d with
  | .chain first rest =>
    obtain ⟨hfirst, hrest⟩ := List.forall_mem_append.mp h
    exact rest.writes hrest ((first.writes hfirst).weaken (by decide))

/-- A chain is written from its front, since its tree nests to the left. -/
theorem SumTail.writes (d : SumTail) (h : ∀ l ∈ d.lexemes, l.WellSpelled) {ls : List Lexeme}
    {t left : Expr} (hleft : Writes ls t left .expression) :
    Writes (ls ++ d.respelled.lexemes) (d.respelled.tree t) (d.tree left) .expression := by
  match d with
  | .nil => exact (List.append_nil ls).symm ▸ hleft
  | .cons op isSum operand rest =>
    obtain ⟨hoperand, hrest⟩ := List.forall_mem_append.mp (List.forall_mem_cons.mp h).2
    have hwrites := rest.writes hrest (.sum isSum hleft (operand.writes hoperand))
    rwa [List.append_assoc] at hwrites

theorem Term.writes (d : Term) (h : ∀ l ∈ d.lexemes, l.WellSpelled) :
    Writes d.respelled.lexemes d.respelled.tree d.tree .term := by
  match d with
  | .chain first rest =>
    obtain ⟨hfirst, hrest⟩ := List.forall_mem_append.mp h
    exact rest.writes hrest ((first.writes hfirst).weaken (by decide))

theorem ProductTail.writes (d : ProductTail) (h : ∀ l ∈ d.lexemes, l.WellSpelled)
    {ls : List Lexeme} {t left : Expr} (hleft : Writes ls t left .term) :
    Writes (ls ++ d.respelled.lexemes) (d.respelled.tree t) (d.tree left) .term := by
  match d with
  | .nil => exact (List.append_nil ls).symm ▸ hleft
  | .cons op isProduct operand rest =>
    obtain ⟨hoperand, hrest⟩ := List.forall_mem_append.mp (List.forall_mem_cons.mp h).2
    have hwrites := rest.writes hrest (.product isProduct hleft (operand.writes hoperand))
    rwa [List.append_assoc] at hwrites

theorem Factor.writes (d : Factor) (h : ∀ l ∈ d.lexemes, l.WellSpelled) :
    Writes d.respelled.lexemes d.respelled.tree d.tree .factor := by
  match d with
  -- a plus sign is in neither tree
  | .plus operand => exact operand.writes (List.forall_mem_cons.mp h).2
  | .minus operand => exact (operand.writes (List.forall_mem_cons.mp h).2).neg
  | .primary p => exact (p.writes h).weaken (by decide)
  | .power base exponent =>
    obtain ⟨hbase, hexponent⟩ := List.forall_mem_append.mp h
    exact (base.writes hbase).power (exponent.writes (List.forall_mem_cons.mp hexponent).2)

theorem Primary.writes (d : Primary) (h : ∀ l ∈ d.lexemes, l.WellSpelled) :
    Writes d.respelled.lexemes d.respelled.tree d.tree .primary := by
  match d with
  | .number digits =>
    have hdigits : IsNumeral digits.toList := h (.number digits) List.mem_cons_self
    obtain ⟨value, hvalue, hunsigned⟩ := Decimal.exists_read?_of_isNumeral hdigits
    have hnumber : numberValue digits = value := by rw [numberValue, hvalue, Option.getD_some]
    exact .number (hnumber ▸ hunsigned)
  | .name text => exact .name (h (.name text) List.mem_cons_self)
  | .call text arguments =>
    have hname : IsName text := h (.name text) List.mem_cons_self
    have hinner := (List.forall_mem_cons.mp (List.forall_mem_cons.mp h).2).2
    exact (arguments.writes (List.forall_mem_append.mp hinner).1).call hname
  | .group inner =>
    have hinner := (List.forall_mem_cons.mp h).2
    exact (inner.writes (List.forall_mem_append.mp hinner).1).group

theorem Arguments.writes (d : Arguments) (h : ∀ l ∈ d.lexemes, l.WellSpelled) :
    WritesArguments d.respelled.lexemes d.respelled.trees d.trees := by
  match d with
  | .empty => exact ⟨nofun, rfl, rfl⟩
  | .list first rest =>
    obtain ⟨hfirst, hrest⟩ := List.forall_mem_append.mp h
    exact rest.writes hrest (first.writes hfirst)

/-- The arguments that come behind another one. -/
theorem ArgumentTail.writes (d : ArgumentTail) (h : ∀ l ∈ d.lexemes, l.WellSpelled)
    {ls : List Lexeme} {t first : Expr} (hfirst : Writes ls t first .expression) :
    WritesArguments (ls ++ d.respelled.lexemes) (t :: d.respelled.trees) (first :: d.trees) := by
  match d with
  | .nil => exact (List.append_nil ls).symm ▸ hfirst.single
  | .cons argument rest =>
    obtain ⟨hargument, hrest⟩ := List.forall_mem_append.mp (List.forall_mem_cons.mp h).2
    exact hfirst.cons (rest.writes hrest (argument.writes hargument))

end

end Grammar

namespace Expr

open Grammar

/-- **A parsed expression is read back from its text**, which is never too deep.  No operand was put
in parentheses.  Numbers that left the range of doubles are read back as names, and written in the
same way again.  Without such numbers it is the same tree. -/
theorem parse_print_of_parse {s : String} {e : Expr} (h : parse s = .ok e) :
    e.Verbatim ∧ parse e.print = .ok e.infNamed ∧ e.infNamed.print = e.print ∧
      (e.infNamed = e ↔ e.allFinite = true) := by
  obtain ⟨d, hd, rfl, hlevels⟩ := exists_derives_of_parse h
  obtain ⟨hverbatim, -, hlexemes, htree⟩ := d.writes hd.wellSpelled
  -- the text of the tree is that of one without infinite numbers, whose lexemes are known
  have hprint := hverbatim.print_infNamed
  have htext : Derives d.tree.print d.respelled := by
    rw [Derives, ← hprint, hverbatim.legible_infNamed.lexemes_scan_print, hlexemes]
  have hparse := parse_of_derives htext (d.levels_respelled_le.trans hlevels)
  rw [htree] at hparse
  exact ⟨hverbatim, hparse, hprint, infNamed_eq_self_iff d.tree⟩

/-- Plus signs and digits that are not written again, and parentheses that are nodes. -/
theorem parse_print_of_parse_signs :
    ∃ e, parse "+01.50^-+x*(2.)-f(y,00)" = .ok e ∧ e.print = "1.5^-x * (2) - f(y, 0)" ∧
      parse "1.5^-x * (2) - f(y, 0)" = .ok e := by
  have hcheck : (match parse "+01.50^-+x*(2.)-f(y,00)" with
      | .ok e => e.allFinite && e.print == "1.5^-x * (2) - f(y, 0)"
      | .error _ => false) = true := by decide +kernel
  cases hparse : parse "+01.50^-+x*(2.)-f(y,00)" with
  | error cause =>
    rw [hparse] at hcheck
    cases hcheck
  | ok e =>
    rw [hparse] at hcheck
    obtain ⟨hfinite, hprint⟩ := Bool.and_eq_true_iff.mp hcheck
    obtain ⟨-, hread, -, hsame⟩ := parse_print_of_parse hparse
    rw [hsame.mpr hfinite, eq_of_beq hprint] at hread
    exact ⟨e, rfl, eq_of_beq hprint, hread⟩

/-! ### Numbers that are too large -/

/-- A numeral is parsed as its value. -/
theorem parse_numeral {digits : String} (h : IsNumeral digits.toList) :
    parse digits = .ok (num (numberValue digits)) := by
  have hlexemes := lexemesOf_number h separated_nil
  rw [List.append_nil, String.ofList_toList, lexemesOf_nil] at hlexemes
  have hderives : Derives digits (.chain (.chain (.primary (.number digits)) .nil) .nil) :=
    (lexemes_scan digits).trans hlexemes
  have hlevels : 1 ≤ maxNesting := by decide
  exact parse_of_derives hderives hlevels

/-- A name is parsed as the variable. -/
theorem parse_name {name : String} (h : IsName name) : parse name = .ok (var name) := by
  have hlexemes := reads_name h [] separated_nil
  rw [List.append_nil, lexemesOf_nil] at hlexemes
  have hderives : Derives name (.chain (.chain (.primary (.name name)) .nil) .nil) :=
    (lexemes_scan name).trans hlexemes
  have hlevels : 1 ≤ maxNesting := by decide
  exact parse_of_derives hderives hlevels

/-- A power of ten in digits. -/
def powerOfTen (n : Nat) : String := String.ofList ('1' :: Decimal.Layout.zeros n)

theorem isDigit_powerOfTen (n : Nat) : ∀ c ∈ '1' :: Decimal.Layout.zeros n, c.isDigit = true :=
  List.forall_mem_cons.mpr ⟨by decide, Decimal.Layout.isDigit_zeros n⟩

theorem isNumeral_powerOfTen (n : Nat) : IsNumeral (powerOfTen n).toList := by
  rw [powerOfTen, String.toList_ofList]
  exact .whole (isDigit_powerOfTen n)

theorem numberValue_powerOfTen (n : Nat) :
    numberValue (powerOfTen n) = Decimal.nearest (10 ^ n) 0 := by
  have hdigits : Decimal.ofDigits ('1' :: Decimal.Layout.zeros n) = 10 ^ n * 1 :=
    Decimal.ofDigits_append_zeros ['1'] n
  rw [numberValue, powerOfTen, Decimal.read?_of_isDigit (by decide),
    Decimal.readDecimal?_digits (isDigit_powerOfTen n) nofun, hdigits, Nat.mul_one,
    Option.getD_some]

/-- **A number that is read back as a name**: the first power of ten beyond the range of doubles. -/
theorem parse_print_powerOfTen :
    parse (powerOfTen 309) = .ok (num (1.0 / 0.0)) ∧ (num (1.0 / 0.0)).print = "inf" ∧
      parse "inf" = .ok (var "inf") ∧ var "inf" ≠ num (1.0 / 0.0) := by
  have hvalue : Decimal.nearest (10 ^ 309) 0 = 1.0 / 0.0 := by decide +kernel
  have hparse := parse_numeral (isNumeral_powerOfTen 309)
  rw [numberValue_powerOfTen, hvalue] at hparse
  exact ⟨hparse, by decide +kernel, parse_name Verbatim.isName_inf, nofun⟩

end Expr

end Abacus
