import Abacus.Proofs.Grammar.Derivation

/-!
# Tokens that spell lexemes

What a reader takes off the front of a list of tokens, in terms of lexemes: `Spells ts ls rest`
says that `ts` begins with tokens of the lexemes `ls` and that `rest` is what follows.  It is cut
where a list of lexemes is cut, and this is how the rules of the grammar are followed along the
tokens in both directions.

## Main definitions

* `Spells`: tokens that begin with given lexemes

## Main results

* `spells_append`: cutting
* `Reader.chainOperator?_eq_some`: the operator that continues a chain
-/

namespace Abacus

namespace Grammar

/-- **The tokens begin with tokens of the lexemes**, and the rest follows. -/
def Spells (ts : List Token) (ls : List Lexeme) (rest : List Token) : Prop :=
  ∃ front, ts = front ++ rest ∧ front.map Token.lexeme = ls

theorem spells_nil {ts rest : List Token} : Spells ts [] rest ↔ ts = rest := by
  constructor
  · rintro ⟨front, rfl, hfront⟩
    rw [List.map_eq_nil_iff.mp hfront, List.nil_append]
  · rintro rfl
    exact ⟨[], rfl, rfl⟩

theorem spells_cons {ts rest : List Token} {l : Lexeme} {ls : List Lexeme} :
    Spells ts (l :: ls) rest ↔ ∃ span ts', ts = ⟨l, span⟩ :: ts' ∧ Spells ts' ls rest := by
  constructor
  · rintro ⟨front, rfl, hfront⟩
    obtain ⟨⟨lexeme, span⟩, others, rfl, rfl, hothers⟩ := List.map_eq_cons_iff.mp hfront
    exact ⟨span, others ++ rest, rfl, others, rfl, hothers⟩
  · rintro ⟨span, ts', rfl, front, rfl, hfront⟩
    exact ⟨⟨l, span⟩ :: front, rfl, by rw [List.map_cons, hfront]⟩

/-- Tokens are cut where the lexemes they spell are cut. -/
theorem spells_append {ts rest : List Token} {ls ls' : List Lexeme} :
    Spells ts (ls ++ ls') rest ↔ ∃ middle, Spells ts ls middle ∧ Spells middle ls' rest := by
  constructor
  · rintro ⟨front, rfl, hfront⟩
    obtain ⟨first, second, rfl, hfirst, hsecond⟩ := List.map_eq_append_iff.mp hfront
    exact ⟨second ++ rest, ⟨first, List.append_assoc .., hfirst⟩, second, rfl, hsecond⟩
  · rintro ⟨middle, ⟨first, rfl, hfirst⟩, second, rfl, hsecond⟩
    exact ⟨first ++ second, (List.append_assoc ..).symm, by rw [List.map_append, hfirst, hsecond]⟩

theorem Spells.refl (ts : List Token) : Spells ts [] ts := spells_nil.mpr rfl

theorem Spells.cons {ts rest : List Token} {ls : List Lexeme} (l : Lexeme) (span : Span)
    (h : Spells ts ls rest) : Spells (⟨l, span⟩ :: ts) (l :: ls) rest :=
  spells_cons.mpr ⟨span, ts, rfl, h⟩

theorem Spells.append {ts middle rest : List Token} {ls ls' : List Lexeme}
    (h : Spells ts ls middle) (h' : Spells middle ls' rest) : Spells ts (ls ++ ls') rest :=
  spells_append.mpr ⟨middle, h, h'⟩

theorem Spells.length_le {ts rest : List Token} {ls : List Lexeme} (h : Spells ts ls rest) :
    ls.length ≤ ts.length := by
  obtain ⟨front, rfl, rfl⟩ := h
  simp

end Grammar

/-! ### The token in front -/

theorem BinaryOp.symbol_of_ofSymbol? {s : Symbol} {op : BinaryOp} (h : ofSymbol? s = some op) :
    s = op.symbol := by
  cases s <;> cases h <;> rfl

namespace Reader

/-- What reads one thing after another succeeds when both are read. -/
theorem bind_eq_ok_iff {ε α β : Type} {x : Except ε α} {next : α → Except ε β} {b : β} :
    (x >>= next) = .ok b ↔ ∃ a, x = .ok a ∧ next a = .ok b := by
  cases x with
  | error e => simp [bind, Except.bind]
  | ok a => simp [bind, Except.bind]

@[simp] theorem front_cons (t : Token) (ts : List Token) : front (t :: ts) = t := rfl

/-- An operator continues a chain when its symbol stands in front and it binds tightly enough, and
is not a power. -/
theorem chainOperator?_eq_some {least : Precedence} {ts : List Token} {op : BinaryOp} :
    chainOperator? least ts = some op ↔
      (∃ span rest, ts = ⟨.symbol op.symbol, span⟩ :: rest) ∧
        least.rank ≤ op.precedence.rank ∧ op.precedence.rank < Precedence.exponent.rank := by
  rw [chainOperator?, Option.filter_eq_some_iff, Bool.and_eq_true, decide_eq_true_iff,
    decide_eq_true_iff]
  refine and_congr_left fun _ => ?_
  constructor
  · intro h
    rcases ts with _ | ⟨⟨lexeme, span⟩, rest⟩
    · cases h
    -- of all lexemes only symbols stand for operators
    · cases lexeme with
      | symbol s => exact ⟨span, rest, by rw [BinaryOp.symbol_of_ofSymbol? h]⟩
      | number _ | name _ | unexpected _ | endOfInput => cases h
  · rintro ⟨span, rest, rfl⟩
    exact BinaryOp.ofSymbol?_symbol op

theorem chainOperator?_exponent (ts : List Token) : chainOperator? .exponent ts = none := by
  rw [Option.eq_none_iff_forall_ne_some]
  intro op h
  obtain ⟨-, hle, hlt⟩ := chainOperator?_eq_some.mp h
  omega

theorem chainOperator?_factor {ts : List Token} {op : BinaryOp} :
    chainOperator? .factor ts = some op ↔
      (∃ span rest, ts = ⟨.symbol op.symbol, span⟩ :: rest) ∧ op.precedence = .factor := by
  rw [chainOperator?_eq_some]
  refine and_congr_right fun _ => ?_
  cases op <;> decide

theorem chainOperator?_term {ts : List Token} {op : BinaryOp} :
    chainOperator? .term ts = some op ↔
      (∃ span rest, ts = ⟨.symbol op.symbol, span⟩ :: rest) ∧
        (op.precedence = .term ∨ op.precedence = .factor) := by
  rw [chainOperator?_eq_some]
  refine and_congr_right fun _ => ?_
  cases op <;> decide

/-- Nothing continues a chain of products where nothing continues one of sums. -/
theorem chainOperator?_factor_of_term {ts : List Token} (h : chainOperator? .term ts = none) :
    chainOperator? .factor ts = none := by
  rw [Option.eq_none_iff_forall_ne_some] at h ⊢
  intro op hop
  obtain ⟨hfront, hproduct⟩ := chainOperator?_factor.mp hop
  exact h op (chainOperator?_term.mpr ⟨hfront, .inr hproduct⟩)

end Reader

end Abacus
