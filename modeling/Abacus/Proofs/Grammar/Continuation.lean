import Abacus.Proofs.Grammar.Completeness
import Abacus.Proofs.Grammar.Rules

/-!
# How lexemes may go on

A list of lexemes is viable if some expression begins with it.  Behind some lexemes any expression
may stand, as behind a sign, an operator or an opening parenthesis.  What has been read of an
expression before it goes wrong ends in such a place, or behind an expression that stands in one,
and so it is viable.

## Main definitions

* `Viable`: lexemes that an expression begins with
* `Awaits`, `AwaitsArguments`: lexemes behind which any expression may stand, or any arguments
* `renumbered`: lexemes whose numbers are numbers

## Main results

* `Expression.exists_join`: two expressions joined by an operator of a chain
* `Awaits.plus`, `Awaits.minus`, `Awaits.power`, `Awaits.operator`, `Awaits.group`, `Awaits.call`:
  where expressions may stand
* `Viable.exists_numbersRead`: what viable lexemes begin may have no other numbers than they have
-/

namespace Abacus.Grammar

/-- **Lexemes that an expression begins with**, however many levels it takes. -/
def Viable (ls : List Lexeme) : Prop := ∃ d : Expression, ls <+: d.lexemes

/-- **Any expression may stand behind the lexemes.** -/
def Awaits (ls : List Lexeme) : Prop := ∀ d : Expression, Viable (ls ++ d.lexemes)

/-- Any arguments of a call may stand behind the lexemes. -/
def AwaitsArguments (ls : List Lexeme) : Prop :=
  ∀ (first : Expression) (others : ArgumentTail), Viable (ls ++ (first.lexemes ++ others.lexemes))

/-! ### Expressions put together -/

/-- The first factor of an expression may be any other. -/
theorem Expression.exists_first (d : Expression) :
    ∃ (first : Factor) (rest : List Lexeme), d.lexemes = first.lexemes ++ rest ∧
      ∀ other : Factor, ∃ d' : Expression, d'.lexemes = other.lexemes ++ rest := by
  obtain ⟨⟨first, products⟩, sums⟩ := d
  refine ⟨first, products.lexemes ++ sums.lexemes, List.append_assoc .., fun other => ?_⟩
  exact ⟨.chain (.chain other products) sums, List.append_assoc ..⟩

section

variable {op : BinaryOp}

/-- A product at the end of a sum goes on with its last term. -/
theorem SumTail.exists_product (isProduct : op.precedence = .factor) (operand : Factor)
    (first : Term) (rest : SumTail) : ∃ d : Expression, d.lexemes =
      (Expression.chain first rest).lexemes ++ .symbol op.symbol :: operand.lexemes := by
  cases rest with
  | nil =>
    obtain ⟨factor, products⟩ := first
    refine ⟨.chain (.chain factor (products.snoc op isProduct operand)) .nil, ?_⟩
    simp only [Expression.lexemes, Term.lexemes, SumTail.lexemes, ProductTail.lexemes_snoc,
      List.append_nil, List.append_assoc]
  | cons op' isSum' operand' rest' =>
    obtain ⟨⟨term, sums⟩, hd⟩ := rest'.exists_product isProduct operand operand'
    refine ⟨.chain first (.cons op' isSum' term sums), ?_⟩
    rw [Expression.lexemes] at hd
    simp only [Expression.lexemes, SumTail.lexemes, hd, List.append_assoc, List.cons_append]

/-- One more factor at the end of an expression, behind an operator of a chain. -/
theorem Expression.exists_snoc (d : Expression) (hop : op.precedence ≠ .exponent)
    (operand : Factor) :
    ∃ d' : Expression, d'.lexemes = d.lexemes ++ .symbol op.symbol :: operand.lexemes := by
  obtain ⟨first, rest⟩ := d
  have hprecedence : op.precedence = .term ∨ op.precedence = .factor := by
    cases op with
    | power => exact absurd rfl hop
    | add | subtract => exact .inl rfl
    | multiply | divide | modulo => exact .inr rfl
  rcases hprecedence with isSum | isProduct
  · refine ⟨.chain first (rest.snoc op isSum (.chain operand .nil)), ?_⟩
    simp only [Expression.lexemes, SumTail.lexemes_snoc, Term.lexemes, ProductTail.lexemes,
      List.append_nil, List.append_assoc]
  · exact rest.exists_product isProduct operand first

theorem ProductTail.exists_append (d : Expression) (products : ProductTail) :
    ∃ d' : Expression, d'.lexemes = d.lexemes ++ products.lexemes := by
  cases products with
  | nil => exact ⟨d, (List.append_nil _).symm⟩
  | cons op isProduct operand rest =>
    obtain ⟨d', hd'⟩ := d.exists_snoc (by rw [isProduct]; nofun) operand
    obtain ⟨whole, hwhole⟩ := rest.exists_append d'
    refine ⟨whole, ?_⟩
    rw [hwhole, hd', ProductTail.lexemes, List.append_assoc, List.cons_append]

theorem SumTail.exists_append (d : Expression) (sums : SumTail) :
    ∃ d' : Expression, d'.lexemes = d.lexemes ++ sums.lexemes := by
  cases sums with
  | nil => exact ⟨d, (List.append_nil _).symm⟩
  | cons op isSum operand rest =>
    obtain ⟨first, others⟩ := d
    obtain ⟨whole, hwhole⟩ := rest.exists_append (.chain first (others.snoc op isSum operand))
    refine ⟨whole, ?_⟩
    simp only [hwhole, Expression.lexemes, SumTail.lexemes_snoc, SumTail.lexemes,
      List.append_assoc, List.cons_append]

/-- **Two expressions joined by an operator** of a chain are an expression, though its operands may
be others. -/
theorem Expression.exists_join (d d' : Expression) (hop : op.precedence ≠ .exponent) :
    ∃ whole : Expression, whole.lexemes = d.lexemes ++ .symbol op.symbol :: d'.lexemes := by
  obtain ⟨⟨first, products⟩, sums⟩ := d'
  obtain ⟨start, hstart⟩ := d.exists_snoc hop first
  obtain ⟨middle, hmiddle⟩ := products.exists_append start
  obtain ⟨whole, hwhole⟩ := sums.exists_append middle
  refine ⟨whole, ?_⟩
  rw [hwhole, hmiddle, hstart, Expression.lexemes, Term.lexemes]
  simp only [List.append_assoc, List.cons_append]

end

/-! ### Where an expression may stand -/

section

variable {ls ls' : List Lexeme}

theorem Viable.mono (h : Viable ls') (hbegins : ls <+: ls') : Viable ls := by
  obtain ⟨d, hd⟩ := h
  exact ⟨d, hbegins.trans hd⟩

/-- The end of input is not part of any expression. -/
theorem Viable.endOfInput_not_mem (h : Viable ls) : .endOfInput ∉ ls := by
  obtain ⟨d, hd⟩ := h
  exact fun hmem => d.endOfInput_not_mem (hd.subset hmem)

theorem awaits_nil : Awaits [] := fun d => ⟨d, List.prefix_rfl⟩

namespace Awaits

theorem viable (h : Awaits ls) : Viable ls :=
  (h (.chain (.chain (.primary (.number "")) .nil) .nil)).mono (List.prefix_append ..)

/-- What an expression begins with may be another factor, made from its own. -/
theorem ofFirst (h : Awaits ls) (before : List Lexeme)
    (make : ∀ first : Factor, ∃ other : Factor, other.lexemes = before ++ first.lexemes) :
    Awaits (ls ++ before) := by
  intro d
  obtain ⟨first, rest, hd, hothers⟩ := d.exists_first
  obtain ⟨other, hother⟩ := make first
  obtain ⟨d', hd'⟩ := hothers other
  have hwhole := h d'
  rwa [hd', hother, List.append_assoc, ← hd, ← List.append_assoc] at hwhole

theorem plus (h : Awaits ls) : Awaits (ls ++ [.symbol .plus]) :=
  h.ofFirst _ fun first => ⟨.plus first, rfl⟩

theorem minus (h : Awaits ls) : Awaits (ls ++ [.symbol .minus]) :=
  h.ofFirst _ fun first => ⟨.minus first, rfl⟩

/-- Behind the sign of a power. -/
theorem power (h : Awaits ls) (base : Primary) :
    Awaits (ls ++ (base.lexemes ++ [.symbol .caret])) := by
  refine h.ofFirst _ fun first => ⟨.power base first, ?_⟩
  rw [Factor.lexemes, List.append_assoc, List.singleton_append]

/-- Behind an expression and an operator of a chain. -/
theorem operator (h : Awaits ls) (d : Expression) {op : BinaryOp}
    (hop : op.precedence ≠ .exponent) :
    Awaits (ls ++ (d.lexemes ++ [.symbol op.symbol])) := by
  intro d'
  obtain ⟨whole, hwhole⟩ := d.exists_join d' hop
  have hviable := h whole
  rw [hwhole] at hviable
  simpa only [List.append_assoc, List.singleton_append] using hviable

/-- A primary that begins with some lexemes may stand where an expression may. -/
theorem primary (h : Awaits ls) {before : List Lexeme} (p : Primary)
    (hbegins : before <+: p.lexemes) : Viable (ls ++ before) := by
  refine (h (.chain (.chain (.primary p) .nil) .nil)).mono ?_
  rw [List.prefix_append_right_inj]
  exact hbegins.trans ((List.prefix_append ..).trans (List.prefix_append ..))

/-- Behind an opening parenthesis. -/
theorem group (h : Awaits ls) : Awaits (ls ++ [.symbol .leftParen]) := by
  intro d
  rw [List.append_assoc]
  refine h.primary (.group d) ?_
  rw [Primary.lexemes, List.singleton_append, List.prefix_cons_inj]
  exact List.prefix_append ..

/-- Behind a name and an opening parenthesis. -/
theorem call (h : Awaits ls) (name : String) :
    AwaitsArguments (ls ++ [.name name, .symbol .leftParen]) := by
  intro first others
  rw [List.append_assoc]
  refine h.primary (.call name (.list first others)) ?_
  rw [Primary.lexemes, List.cons_append, List.cons_append, List.prefix_cons_inj,
    List.prefix_cons_inj]
  exact List.prefix_append ..

end Awaits

namespace AwaitsArguments

theorem awaits (h : AwaitsArguments ls) : Awaits ls := by
  intro d
  have hviable := h d .nil
  rwa [ArgumentTail.lexemes, List.append_nil] at hviable

/-- Behind an argument and a comma. -/
theorem comma (h : AwaitsArguments ls) (d : Expression) :
    AwaitsArguments (ls ++ (d.lexemes ++ [.symbol .comma])) := by
  intro first others
  have hviable := h d (.cons first others)
  rw [ArgumentTail.lexemes] at hviable
  simpa only [List.append_assoc, List.singleton_append] using hviable

end AwaitsArguments

end

/-! ### Digits that spell no number

The rules derive any digits.  In a derivation those that spell no number may be replaced. -/

/-- The lexeme, but for digits that spell no number. -/
def renumbered : Lexeme → Lexeme
  | .number digits => if (Decimal.read? digits).isSome then .number digits else .number "1"
  | l => l

theorem numbersRead_renumbered (ls : List Lexeme) : NumbersRead (ls.map renumbered) := by
  intro digits hmem
  obtain ⟨l, -, hl⟩ := List.mem_map.mp hmem
  cases l with
  | number digits' =>
    rw [renumbered] at hl
    split at hl
    · next hsome =>
      cases hl
      exact Option.isSome_iff_exists.mp hsome
    · cases hl
      exact ⟨_, rfl⟩
  | name _ | symbol _ | unexpected _ | endOfInput => cases hl

theorem map_renumbered_of_numbersRead {ls : List Lexeme} (h : NumbersRead ls) :
    ls.map renumbered = ls := by
  refine (List.map_congr_left fun l hl => ?_).trans (List.map_id ls)
  cases l with
  | number digits =>
    obtain ⟨value, hvalue⟩ := h digits hl
    rw [renumbered, hvalue]
    rfl
  | name _ | symbol _ | unexpected _ | endOfInput => rfl

mutual

theorem Expression.exists_renumbered (d : Expression) :
    ∃ d' : Expression, d'.lexemes = d.lexemes.map renumbered := by
  match d with
  | .chain first rest =>
    obtain ⟨first', hfirst⟩ := first.exists_renumbered
    obtain ⟨rest', hrest⟩ := rest.exists_renumbered
    exact ⟨.chain first' rest', by simp only [Expression.lexemes, hfirst, hrest, List.map_append]⟩

theorem SumTail.exists_renumbered (d : SumTail) :
    ∃ d' : SumTail, d'.lexemes = d.lexemes.map renumbered := by
  match d with
  | .nil => exact ⟨.nil, rfl⟩
  | .cons op isSum operand rest =>
    obtain ⟨operand', hoperand⟩ := operand.exists_renumbered
    obtain ⟨rest', hrest⟩ := rest.exists_renumbered
    refine ⟨.cons op isSum operand' rest', ?_⟩
    simp only [SumTail.lexemes, hoperand, hrest, List.map_cons, List.map_append, renumbered]

theorem Term.exists_renumbered (d : Term) :
    ∃ d' : Term, d'.lexemes = d.lexemes.map renumbered := by
  match d with
  | .chain first rest =>
    obtain ⟨first', hfirst⟩ := first.exists_renumbered
    obtain ⟨rest', hrest⟩ := rest.exists_renumbered
    exact ⟨.chain first' rest', by simp only [Term.lexemes, hfirst, hrest, List.map_append]⟩

theorem ProductTail.exists_renumbered (d : ProductTail) :
    ∃ d' : ProductTail, d'.lexemes = d.lexemes.map renumbered := by
  match d with
  | .nil => exact ⟨.nil, rfl⟩
  | .cons op isProduct operand rest =>
    obtain ⟨operand', hoperand⟩ := operand.exists_renumbered
    obtain ⟨rest', hrest⟩ := rest.exists_renumbered
    refine ⟨.cons op isProduct operand' rest', ?_⟩
    simp only [ProductTail.lexemes, hoperand, hrest, List.map_cons, List.map_append, renumbered]

theorem Factor.exists_renumbered (d : Factor) :
    ∃ d' : Factor, d'.lexemes = d.lexemes.map renumbered := by
  match d with
  | .plus operand =>
    obtain ⟨operand', hoperand⟩ := operand.exists_renumbered
    exact ⟨.plus operand', by simp only [Factor.lexemes, hoperand, List.map_cons, renumbered]⟩
  | .minus operand =>
    obtain ⟨operand', hoperand⟩ := operand.exists_renumbered
    exact ⟨.minus operand', by simp only [Factor.lexemes, hoperand, List.map_cons, renumbered]⟩
  | .primary p =>
    obtain ⟨p', hp⟩ := p.exists_renumbered
    exact ⟨.primary p', hp⟩
  | .power base exponent =>
    obtain ⟨base', hbase⟩ := base.exists_renumbered
    obtain ⟨exponent', hexponent⟩ := exponent.exists_renumbered
    refine ⟨.power base' exponent', ?_⟩
    simp only [Factor.lexemes, hbase, hexponent, List.map_append, List.map_cons, renumbered]

theorem Primary.exists_renumbered (d : Primary) :
    ∃ d' : Primary, d'.lexemes = d.lexemes.map renumbered := by
  match d with
  | .number digits =>
    rw [Primary.lexemes, List.map_singleton, renumbered]
    split
    · exact ⟨.number digits, rfl⟩
    · exact ⟨.number "1", rfl⟩
  | .name text => exact ⟨.name text, rfl⟩
  | .call text arguments =>
    obtain ⟨arguments', harguments⟩ := arguments.exists_renumbered
    refine ⟨.call text arguments', ?_⟩
    simp only [Primary.lexemes, harguments, List.map_cons, List.map_append, List.map_nil,
      renumbered]
  | .group inner =>
    obtain ⟨inner', hinner⟩ := inner.exists_renumbered
    refine ⟨.group inner', ?_⟩
    simp only [Primary.lexemes, hinner, List.map_cons, List.map_append, List.map_nil, renumbered]

theorem Arguments.exists_renumbered (d : Arguments) :
    ∃ d' : Arguments, d'.lexemes = d.lexemes.map renumbered := by
  match d with
  | .empty => exact ⟨.empty, rfl⟩
  | .list first rest =>
    obtain ⟨first', hfirst⟩ := first.exists_renumbered
    obtain ⟨rest', hrest⟩ := rest.exists_renumbered
    exact ⟨.list first' rest', by simp only [Arguments.lexemes, hfirst, hrest, List.map_append]⟩

theorem ArgumentTail.exists_renumbered (d : ArgumentTail) :
    ∃ d' : ArgumentTail, d'.lexemes = d.lexemes.map renumbered := by
  match d with
  | .nil => exact ⟨.nil, rfl⟩
  | .cons argument rest =>
    obtain ⟨argument', hargument⟩ := argument.exists_renumbered
    obtain ⟨rest', hrest⟩ := rest.exists_renumbered
    refine ⟨.cons argument' rest', ?_⟩
    simp only [ArgumentTail.lexemes, hargument, hrest, List.map_cons, List.map_append, renumbered]

end

/-- **Viable lexemes begin an expression whose numbers are numbers**, if they have only such
themselves. -/
theorem Viable.exists_numbersRead {ls : List Lexeme} (h : Viable ls) (hls : NumbersRead ls) :
    ∃ d : Expression, NumbersRead d.lexemes ∧ ls <+: d.lexemes := by
  obtain ⟨d, hd⟩ := h
  obtain ⟨d', hd'⟩ := d.exists_renumbered
  refine ⟨d', hd' ▸ numbersRead_renumbered d.lexemes, ?_⟩
  rw [hd', ← map_renumbered_of_numbersRead hls]
  exact hd.map renumbered

end Abacus.Grammar
