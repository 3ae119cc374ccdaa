import Abacus.Proofs.Decimal.Unsigned
import Abacus.Proofs.Expr.Reparse
import Abacus.Proofs.Token.Spacing

/-!
# Expressions that are written as they stand

A tree is written as it stands if no operand of it is put in parentheses, its numbers have no minus
sign and its names are names.  Such are the trees that texts are read as.

One thing is not written so that it is read again.  The digits of a number may leave the range of
doubles.  Such a number is infinite, and its text is a word, which is read as a name.

## Main definitions

* `Expr.Verbatim`: trees that are written as they stand
* `Expr.infNamed`: infinite numbers replaced by names
* `Lexeme.WellSpelled`: digits that are numerals and names that are names

## Main results

* `Expr.infNamed_eq_self_iff`: only infinite numbers are replaced
* `Expr.Verbatim.print_infNamed`: an infinite number and its name are written alike
* `Grammar.Derives.wellSpelled`: the lexemes of a text
-/

namespace Abacus

namespace Expr

/-- **Trees that are written as they stand.**  No operand is put in parentheses.  Numbers have no
minus sign, no minus sign stands behind its operand, and names are names. -/
inductive Verbatim : Expr → Prop
  | num {value : Float} : Unsigned value → Verbatim (.num value)
  | var {name : String} : IsName name → Verbatim (.var name)
  | group {inner : Expr} : Verbatim inner → Verbatim (.group inner)
  | neg {operand : Expr} : Verbatim operand → operand.needsParensAfterSign = false →
    Verbatim (.neg operand)
  | binary {op : BinaryOp} {left right : Expr} : Verbatim left → Verbatim right →
    left.needsParens op .left = false → right.needsParens op .right = false →
    Verbatim (.binary op left right)
  | call {name : String} {arguments : List Expr} : IsName name →
    (∀ e ∈ arguments, Verbatim e) → Verbatim (.call name arguments)

theorem verbatim_of_wrap {e : Expr} {wanted : Bool} (h : (wrap wanted e).Verbatim) :
    e.Verbatim := by
  cases wanted with
  | false => exact h
  | true => cases h with | group hinner => exact hinner

/-- **What is read back** of a tree that is written as it stands is the tree. -/
theorem Verbatim.reread_eq {e : Expr} (h : e.Verbatim) : e.reread = e := by
  induction h with
  | num hvalue => exact signedNumber_eq_num hvalue.isNegative_eq
  | var _ => rfl
  | group _ ih => rw [reread, ih]
  | neg _ hparens ih =>
    rw [reread, ih, hparens]
    rfl
  | binary _ _ hparens hparens' ihl ihr =>
    rw [reread, ihl, ihr, hparens, hparens']
    rfl
  | call _ _ ih => rw [reread, rereadArguments_eq, List.map_congr_left ih, List.map_id']

/-! ### Infinite numbers -/

mutual

/-- **Infinite numbers** replaced by the name that their text is read as. -/
def infNamed : Expr → Expr
  | num value => if value.isFinite then num value else var (Decimal.plain value)
  | var name => var name
  | group inner => group inner.infNamed
  | neg operand => neg operand.infNamed
  | trailingNeg operand => trailingNeg operand.infNamed
  | binary op left right => binary op left.infNamed right.infNamed
  | call name arguments => call name (infNamedArguments arguments)

def infNamedArguments : List Expr → List Expr
  | [] => []
  | argument :: rest => argument.infNamed :: infNamedArguments rest

end

mutual

/-- All numbers are finite. -/
def allFinite : Expr → Bool
  | num value => value.isFinite
  | var _ => true
  | group inner => inner.allFinite
  | neg operand => operand.allFinite
  | trailingNeg operand => operand.allFinite
  | binary _ left right => left.allFinite && right.allFinite
  | call _ arguments => allFiniteArguments arguments

def allFiniteArguments : List Expr → Bool
  | [] => true
  | argument :: rest => argument.allFinite && allFiniteArguments rest

end

mutual

/-- Only trees with infinite numbers are changed. -/
theorem infNamed_eq_self_iff (e : Expr) : e.infNamed = e ↔ e.allFinite = true := by
  match e with
  | num value =>
    rw [infNamed, allFinite]
    cases value.isFinite with
    | true => exact iff_of_true rfl rfl
    | false => exact iff_of_false nofun nofun
  | var name => exact iff_of_true rfl rfl
  | group inner =>
    rw [infNamed, allFinite, group.injEq]
    exact infNamed_eq_self_iff inner
  | neg operand =>
    rw [infNamed, allFinite, neg.injEq]
    exact infNamed_eq_self_iff operand
  | trailingNeg operand =>
    rw [infNamed, allFinite, trailingNeg.injEq]
    exact infNamed_eq_self_iff operand
  | binary op left right =>
    rw [infNamed, allFinite, binary.injEq, Bool.and_eq_true, ← infNamed_eq_self_iff left,
      ← infNamed_eq_self_iff right]
    exact and_iff_right rfl
  | call name arguments =>
    rw [infNamed, allFinite, call.injEq, ← infNamedArguments_eq_self_iff arguments]
    exact and_iff_right rfl

theorem infNamedArguments_eq_self_iff (arguments : List Expr) :
    infNamedArguments arguments = arguments ↔ allFiniteArguments arguments = true := by
  match arguments with
  | [] => exact iff_of_true rfl rfl
  | argument :: rest =>
    rw [infNamedArguments, allFiniteArguments, List.cons.injEq, Bool.and_eq_true,
      infNamed_eq_self_iff argument, infNamedArguments_eq_self_iff rest]

end

theorem infNamedArguments_eq (arguments : List Expr) :
    infNamedArguments arguments = arguments.map infNamed := by
  induction arguments with
  | nil => rfl
  | cons e rest ih => rw [infNamedArguments, ih, List.map_cons]

namespace Verbatim

variable {e : Expr}

/-- A name needs no parentheses, and an unsigned number needs none either. -/
theorem needsParens_infNamed (h : e.Verbatim) (op : BinaryOp) (side : Side) :
    e.infNamed.needsParens op side = e.needsParens op side := by
  cases h with
  | @num value hvalue =>
    have hnone : (Expr.num value).needsParens op side = false := by
      rw [Expr.needsParens, hvalue.isNegative_eq]
      rfl
    rw [hnone, Expr.infNamed]
    split
    · exact hnone
    · rfl
  | var | group | neg | binary | call => rfl

theorem needsParensAfterSign_infNamed (h : e.Verbatim) :
    e.infNamed.needsParensAfterSign = e.needsParensAfterSign := by
  cases h with
  | num =>
    rw [Expr.infNamed]
    split <;> rfl
  | var | group | neg | binary | call => rfl

theorem isName_inf : IsName "inf" := by decide +kernel

/-- No number is left that cannot be read back. -/
theorem legible_infNamed (h : e.Verbatim) : e.infNamed.Legible := by
  induction h with
  | @num value hvalue =>
    rw [Expr.infNamed]
    cases hfinite : value.isFinite with
    | true => exact .num hfinite
    | false =>
      rw [hvalue.plain_eq hfinite]
      exact .var isName_inf
  | var hname => exact .var hname
  | group _ ih =>
    rw [Expr.infNamed]
    exact .group ih
  | neg _ _ ih =>
    rw [Expr.infNamed]
    exact .neg ih
  | binary _ _ _ _ ihl ihr =>
    rw [Expr.infNamed]
    exact .binary ihl ihr
  | call hname _ ih =>
    rw [Expr.infNamed]
    refine .call hname fun e he => ?_
    rw [infNamedArguments_eq] at he
    obtain ⟨argument, hmem, rfl⟩ := List.mem_map.mp he
    exact ih argument hmem

theorem printArguments_infNamed {arguments : List Expr}
    (h : ∀ e ∈ arguments, e.infNamed.print = e.print) :
    printArguments (infNamedArguments arguments) = printArguments arguments := by
  rw [printArguments_eq, printArguments_eq, infNamedArguments_eq, List.map_map]
  exact congrArg _ (List.map_congr_left h)

/-- **An infinite number and its name are written alike.** -/
theorem print_infNamed (h : e.Verbatim) : e.infNamed.print = e.print := by
  induction h with
  | num _ =>
    rw [Expr.infNamed]
    split <;> rfl
  | var _ => rfl
  | group _ ih => rw [Expr.infNamed, print, print, ih]
  | neg hoperand _ ih =>
    rw [Expr.infNamed, print, print, ih, hoperand.needsParensAfterSign_infNamed]
  | binary hleft hright _ _ ihl ihr =>
    rw [Expr.infNamed, print, print, ihl, ihr, hleft.needsParens_infNamed,
      hright.needsParens_infNamed]
  | call _ _ ih => rw [Expr.infNamed, print, print, printArguments_infNamed ih]

end Verbatim

end Expr

/-! ### Lexemes -/

/-- The digits of a number are those of a numeral, and the text of a name is a name. -/
def Lexeme.WellSpelled : Lexeme → Prop
  | number digits => IsNumeral digits.toList
  | name text => IsName text
  | symbol _ | unexpected _ | endOfInput => True

theorem Lexeme.CutOut.wellSpelled {before part after : List Char} {l : Lexeme}
    (h : l.CutOut before part after) : l.WellSpelled := by
  cases h with
  | symbol _ | unexpected _ _ _ _ _ => trivial
  | number hnumeral _ _ =>
    rw [Lexeme.WellSpelled, String.toList_ofList]
    exact hnumeral
  | name hne hname _ _ =>
    rw [Lexeme.WellSpelled, IsName, String.toList_ofList]
    exact ⟨hne, List.all_eq_true.mpr hname⟩

namespace Grammar

/-- The lexemes that a text is derived from are well spelled. -/
theorem Derives.wellSpelled {s : String} {d : Expression} (h : Derives s d) :
    ∀ l ∈ d.lexemes, l.WellSpelled := by
  obtain ⟨hlexemes, hcut⟩ := lexemes_scan_dropLast s
  have hsame : d.lexemes = (scan s).dropLast.map Token.lexeme :=
    List.append_cancel_right (h.symm.trans hlexemes)
  intro l hl
  obtain ⟨before, part, after, hl⟩ := hcut l (hsame ▸ hl)
  exact hl.wellSpelled

end Grammar

end Abacus
