import Abacus.Proofs.Grammar.Completeness
import Abacus.Proofs.Grammar.Soundness
import Abacus.Proofs.Token.Scan

/-!
# Parsing is deriving

A text is parsed exactly when its lexemes are derived by the grammar within the levels there are,
and the tree is that of the derivation.

## Main definitions

* `Derives`: a text has a derivation
* `Closed`: what a property of trees needs to hold of all that are parsed

## Main results

* `exists_derives_of_parse`: what is parsed is derived
* `parse_of_derives`: what is derived within the levels is parsed
* `parse_eq_ok_iff`: the two together
* `Derives.tree_unique`: a text stands for one tree
* `Closed.of_parse`: a closed property holds of parsed trees
-/

namespace Abacus.Grammar

/-- **The lexemes of the text are derived**, up to the end of input. -/
def Derives (s : String) (d : Expression) : Prop :=
  (scan s).map Token.lexeme = d.lexemes ++ [.endOfInput]

variable {s : String} {d : Expression}

/-- A reader that stops at the end of input has taken all other tokens. -/
theorem derives_of_spells {rest : List Token} (h : Spells (scan s) d.lexemes rest)
    (hend : (Reader.front rest).isEnd = true) : Derives s d := by
  obtain ⟨front, hscan, hfront⟩ := h
  obtain ⟨ts, last, htokens, hlast, hts⟩ := exists_scan_eq s
  have hsplit : front ++ rest = ts ++ [last] := hscan.symm.trans htokens
  rcases rest.eq_nil_or_concat with rfl | ⟨init, final, rfl⟩
  -- nothing is left: then the end of input would have been derived
  · rw [List.append_nil] at hsplit
    have hmem : Lexeme.endOfInput ∈ d.lexemes := by
      rw [← hfront, hsplit, ← hlast]
      simp
    exact absurd hmem d.endOfInput_not_mem
  · rw [List.concat_eq_append, ← List.append_assoc] at hsplit
    obtain ⟨hinit, hfinal⟩ := List.append_inj' hsplit rfl
    obtain rfl : final = last := by simpa using hfinal
    cases init with
    -- the end of input alone is left
    | nil =>
      rw [Derives, htokens, ← hinit, List.append_nil, List.map_append, hfront, List.map_singleton,
        hlast]
    -- something stands before it: then there would be two of them
    | cons t init =>
      have ht : t.lexeme = .endOfInput := eq_of_beq hend
      exact absurd ht (hts t (hinit ▸ by simp))

theorem exists_spells_of_derives (h : Derives s d) :
    ∃ rest, Spells (scan s) d.lexemes rest ∧ (Reader.front rest).isEnd = true := by
  obtain ⟨front, rest, hscan, hfront, hrest⟩ := List.map_eq_append_iff.mp h
  obtain ⟨last, rfl, hlast⟩ := List.map_eq_singleton_iff.mp hrest
  refine ⟨[last], ⟨front, hscan, hfront⟩, ?_⟩
  rw [Reader.front_cons, Token.isEnd, hlast]
  rfl

theorem Derives.numbersRead (h : Derives s d) : NumbersRead d.lexemes := by
  intro digits hmem
  have hscan : Lexeme.number digits ∈ (scan s).map Token.lexeme := by
    rw [h]
    exact List.mem_append_left _ hmem
  obtain ⟨t, ht, hlexeme⟩ := List.mem_map.mp hscan
  exact exists_read?_of_mem_scan ht hlexeme

/-- What is parsed is derived. -/
theorem exists_derives_of_parse {e : Expr} (h : parse s = .ok e) :
    ∃ d : Expression, Derives s d ∧ d.tree = e ∧ d.levels ≤ maxNesting := by
  obtain ⟨⟨e', rest⟩, hread, h⟩ := Reader.bind_eq_ok_iff.mp h
  dsimp only at h
  split at h
  · next hend =>
    cases h
    obtain ⟨d, hspells, htree, hlevels⟩ := (readersSound maxNesting).expression hread
    exact ⟨d, derives_of_spells hspells hend, htree, hlevels⟩
  · cases h

/-- What is derived is read by readers that have the levels. -/
theorem Derives.read (h : Derives s d) {n : Nat} (hlevels : d.levels ≤ n) :
    ∃ rest, (Readers.ofNat n).expression (scan s) = .ok (d.tree, rest) ∧
      (Reader.front rest).isEnd = true := by
  obtain ⟨rest, hspells, hend⟩ := exists_spells_of_derives h
  exact ⟨rest, d.complete hlevels h.numbersRead hspells (endsExpression_of_isEnd hend), hend⟩

theorem parse_of_derives (h : Derives s d) (hlevels : d.levels ≤ maxNesting) :
    parse s = .ok d.tree := by
  obtain ⟨rest, hread, hend⟩ := h.read hlevels
  rw [parse, hread]
  exact if_pos hend

/-- **A text is parsed exactly when it is derived** within the levels, and the tree is that of the
derivation. -/
theorem parse_eq_ok_iff (s : String) (e : Expr) :
    parse s = .ok e ↔ ∃ d : Expression, Derives s d ∧ d.levels ≤ maxNesting ∧ d.tree = e := by
  constructor
  · intro h
    obtain ⟨d, hd, htree, hlevels⟩ := exists_derives_of_parse h
    exact ⟨d, hd, hlevels, htree⟩
  · rintro ⟨d, hd, hlevels, rfl⟩
    exact parse_of_derives hd hlevels

/-- All derivations of a text have the same tree, however many levels they take. -/
theorem Derives.tree_unique {d' : Expression} (h : Derives s d) (h' : Derives s d') :
    d.tree = d'.tree := by
  -- Readers with the levels of both give the one tree and the other.
  obtain ⟨rest, hread, -⟩ := h.read (Nat.le_max_left d.levels d'.levels)
  obtain ⟨rest', hread', -⟩ := h'.read (Nat.le_max_right d.levels d'.levels)
  rw [hread, Except.ok.injEq, Prod.mk.injEq] at hread'
  exact hread'.1

/-! ### Properties of parsed trees -/

/-- The property passes from the parts of a tree to the whole, whatever the whole is but a minus
sign behind its operand. -/
structure Closed (P : Expr → Prop) : Prop where
  num (value : Float) : P (.num value)
  var (name : String) : P (.var name)
  group {inner : Expr} : P inner → P (.group inner)
  neg {operand : Expr} : P operand → P (.neg operand)
  binary (op : BinaryOp) {left right : Expr} : P left → P right → P (.binary op left right)
  call (name : String) {arguments : List Expr} : (∀ e ∈ arguments, P e) → P (.call name arguments)

section

variable {P : Expr → Prop}

mutual

theorem Expression.holds (closed : Closed P) (d : Expression) : P d.tree := by
  match d with
  | .chain first rest => exact rest.holds closed (first.holds closed)

theorem SumTail.holds (closed : Closed P) (d : SumTail) {left : Expr} (hleft : P left) :
    P (d.tree left) := by
  match d with
  | .nil => exact hleft
  | .cons op _ operand rest =>
    exact rest.holds closed (closed.binary op hleft (operand.holds closed))

theorem Term.holds (closed : Closed P) (d : Term) : P d.tree := by
  match d with
  | .chain first rest => exact rest.holds closed (first.holds closed)

theorem ProductTail.holds (closed : Closed P) (d : ProductTail) {left : Expr} (hleft : P left) :
    P (d.tree left) := by
  match d with
  | .nil => exact hleft
  | .cons op _ operand rest =>
    exact rest.holds closed (closed.binary op hleft (operand.holds closed))

theorem Factor.holds (closed : Closed P) (d : Factor) : P d.tree := by
  match d with
  | .plus operand => exact operand.holds closed
  | .minus operand => exact closed.neg (operand.holds closed)
  | .primary p => exact p.holds closed
  | .power base exponent => exact closed.binary .power (base.holds closed) (exponent.holds closed)

theorem Primary.holds (closed : Closed P) (d : Primary) : P d.tree := by
  match d with
  | .number digits => exact closed.num (numberValue digits)
  | .name text => exact closed.var text
  | .call text arguments => exact closed.call text (arguments.holds closed)
  | .group inner => exact closed.group (inner.holds closed)

theorem Arguments.holds (closed : Closed P) (d : Arguments) : ∀ e ∈ d.trees, P e := by
  match d with
  | .empty => nofun
  | .list first rest =>
    intro e he
    rcases List.mem_cons.mp he with rfl | he
    · exact first.holds closed
    · exact rest.holds closed e he

theorem ArgumentTail.holds (closed : Closed P) (d : ArgumentTail) : ∀ e ∈ d.trees, P e := by
  match d with
  | .nil => nofun
  | .cons argument rest =>
    intro e he
    rcases List.mem_cons.mp he with rfl | he
    · exact argument.holds closed
    · exact rest.holds closed e he

end

/-- **What is closed holds of every parsed tree.** -/
theorem Closed.of_parse (closed : Closed P) {s : String} {e : Expr} (h : parse s = .ok e) :
    P e := by
  obtain ⟨d, -, rfl, -⟩ := exists_derives_of_parse h
  exact d.holds closed

end

end Abacus.Grammar
