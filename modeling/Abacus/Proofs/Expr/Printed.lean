import Abacus.Expr.Print
import Abacus.Proofs.Decimal.Plain
import Mathlib.Data.List.Forall2

/-!
# What a printed expression says

The text of an expression has lexemes of its own, which are told here from the tree: those of its
parts, with parentheses around an operand where the rule asks for them, and with a minus sign
before the digits of a negative number.  The blanks of the text do not matter, and no lexeme runs
into the next.

## Main definitions

* `IsName`, `Expr.Legible`: names and numbers that can be read back
* `Expr.lexemes`: the lexemes of the text

## Main results

* `Expr.Legible.reads_print`: the text has these lexemes
-/

namespace Abacus

/-- A name can be read back if it is made of letters and underscores, and of one at least. -/
def IsName (name : String) : Prop := name.toList ≠ [] ∧ name.toList.all isNameChar = true

instance (name : String) : Decidable (IsName name) := inferInstanceAs (Decidable (_ ∧ _ = true))

/-- **The text has lexemes** wherever it stands before what does not go on with its last one. -/
def Reads (text : String) (ls : List Lexeme) : Prop :=
  ∀ rest, Separated rest → lexemesOf (text.toList ++ rest) = ls ++ lexemesOf rest

theorem reads_name {name : String} (h : IsName name) : Reads name [.name name] := by
  intro rest hrest
  obtain ⟨hne, hall⟩ := h
  have hchars := List.all_eq_true.mp hall
  obtain ⟨c, cs, hcs⟩ := List.exists_cons_of_ne_nil hne
  rw [hcs] at hchars ⊢
  rw [lexemesOf_name hchars hrest, ← hcs, String.ofList_toList]
  rfl

namespace Expr

/-- **Trees that can be read back** from their text: no minus sign stands behind its operand, names
are names, and numbers are finite. -/
inductive Legible : Expr → Prop
  | num {value : Float} : value.isFinite = true → Legible (.num value)
  | var {name : String} : IsName name → Legible (.var name)
  | group {inner : Expr} : Legible inner → Legible (.group inner)
  | neg {operand : Expr} : Legible operand → Legible (.neg operand)
  | binary {op : BinaryOp} {left right : Expr} : Legible left → Legible right →
    Legible (.binary op left right)
  | call {name : String} {arguments : List Expr} : IsName name →
    (∀ e ∈ arguments, Legible e) → Legible (.call name arguments)

/-- Lexemes, in parentheses if asked. -/
def parenthesizeLexemes (wanted : Bool) (ls : List Lexeme) : List Lexeme :=
  if wanted then .symbol .leftParen :: (ls ++ [.symbol .rightParen]) else ls

/-- A number as it is written, with its sign if it has a minus sign. -/
def numberLexemes (value : Float) : List Lexeme :=
  (if (Binary64.ofFloat value).isNegative then [.symbol .minus] else []) ++
    [.number (Decimal.plain value.abs)]

mutual

/-- **The lexemes of the text** of an expression. -/
def lexemes : Expr → List Lexeme
  | num value => numberLexemes value
  | var name => [.name name]
  | group inner => parenthesizeLexemes true (lexemes inner)
  | neg operand =>
    .symbol .minus :: parenthesizeLexemes operand.needsParensAfterSign (lexemes operand)
  | trailingNeg operand =>
    parenthesizeLexemes operand.needsParensAfterSign (lexemes operand) ++ [.symbol .minus]
  | binary op left right =>
    parenthesizeLexemes (left.needsParens op .left) (lexemes left) ++ .symbol op.symbol ::
      parenthesizeLexemes (right.needsParens op .right) (lexemes right)
  | call name arguments =>
    .name name :: .symbol .leftParen :: (argumentLexemes arguments ++ [.symbol .rightParen])

/-- The lexemes of arguments between commas. -/
def argumentLexemes : List Expr → List Lexeme
  | [] => []
  | [argument] => lexemes argument
  | argument :: rest => lexemes argument ++ .symbol .comma :: argumentLexemes rest

end

theorem argumentLexemes_cons_cons (e e' : Expr) (rest : List Expr) :
    argumentLexemes (e :: e' :: rest) =
      e.lexemes ++ .symbol .comma :: argumentLexemes (e' :: rest) := by
  rw [argumentLexemes]
  intro hrest
  cases hrest

theorem argumentLexemes_eq (arguments : List Expr) :
    argumentLexemes arguments = [Lexeme.symbol .comma].intercalate (arguments.map lexemes) := by
  match arguments with
  | [] => rfl
  | [e] => exact List.intercalate_singleton.symm
  | e :: e' :: rest =>
    rw [argumentLexemes_cons_cons, argumentLexemes_eq (e' :: rest)]
    simp only [List.map_cons, List.intercalate_cons_cons, List.append_assoc,
      List.singleton_append]

theorem printArguments_eq (arguments : List Expr) :
    printArguments arguments = ", ".intercalate (arguments.map print) := by
  match arguments with
  | [] => rfl
  | [e] => rfl
  | e :: e' :: rest =>
    have hrest := printArguments_eq (e' :: rest)
    rw [printArguments, hrest]
    · simp only [List.map_cons, String.intercalate_cons_cons]
    · nofun

/-! ### The text -/

theorem reads_number {value : Float} (h : value.isFinite = true) :
    Reads (Decimal.plain value) (numberLexemes value) := by
  intro rest hrest
  rw [Decimal.toList_plain h, numberLexemes]
  have hdigits := lexemesOf_number (Decimal.isNumeral_plain_abs h) hrest
  rw [String.ofList_toList] at hdigits
  cases (Binary64.ofFloat value).isNegative with
  | false =>
    simp only [Bool.false_eq_true, if_false, List.nil_append]
    exact hdigits
  | true =>
    simp only [if_true, List.cons_append, List.nil_append]
    refine (lexemesOf_symbol .minus _).trans ?_
    rw [hdigits]

theorem reads_parenthesize {text : String} {ls : List Lexeme} (h : Reads text ls)
    (wanted : Bool) : Reads (parenthesize wanted text) (parenthesizeLexemes wanted ls) := by
  intro rest hrest
  cases wanted with
  | false => exact h rest hrest
  | true =>
    have htext : (parenthesize true text).toList ++ rest =
        Symbol.leftParen.char :: (text.toList ++ Symbol.rightParen.char :: rest) := by
      simp [parenthesize, Symbol.char]
    rw [htext, lexemesOf_symbol, h _ (separated_symbol .rightParen rest), lexemesOf_symbol,
      parenthesizeLexemes, if_pos rfl, List.cons_append, List.append_assoc, List.singleton_append]

/-- An operator is one lexeme, with or without its blanks, and separates what stands around it. -/
theorem lexemesOf_spaced (op : BinaryOp) (rest : List Char) :
    lexemesOf ((spaced op).toList ++ rest) = .symbol op.symbol :: lexemesOf rest ∧
      Separated ((spaced op).toList ++ rest) := by
  have hblank : Text.isBlank ' ' = true := by decide
  by_cases hop : op = .power
  · subst hop
    have htext : (spaced .power).toList ++ rest = Symbol.caret.char :: rest := by
      simp [spaced, BinaryOp.char, BinaryOp.symbol]
    rw [htext]
    exact ⟨lexemesOf_symbol .caret rest, separated_symbol .caret rest⟩
  · have htext : (spaced op).toList ++ rest = ' ' :: op.symbol.char :: ' ' :: rest := by
      simp [spaced, hop, BinaryOp.char]
    rw [htext, lexemesOf_blank hblank, lexemesOf_symbol, lexemesOf_blank hblank]
    exact ⟨rfl, separated_space _⟩

end Expr

namespace Reads

variable {text text' : String} {ls ls' : List Lexeme}

theorem minus (h : Reads text ls) : Reads ("-" ++ text) (.symbol .minus :: ls) := by
  intro rest hrest
  rw [String.toList_append, List.append_assoc, List.cons_append, ← h rest hrest]
  exact lexemesOf_symbol .minus _

theorem operation (h : Reads text ls) (op : BinaryOp) (h' : Reads text' ls') :
    Reads (text ++ Expr.spaced op ++ text') (ls ++ .symbol op.symbol :: ls') := by
  intro rest hrest
  obtain ⟨hop, hseparated⟩ := Expr.lexemesOf_spaced op (text'.toList ++ rest)
  rw [String.toList_append, String.toList_append, List.append_assoc, List.append_assoc,
    h _ hseparated, hop, h' rest hrest, List.append_assoc, List.cons_append]

/-- Texts between commas. -/
theorem intercalate {texts : List String} {lss : List (List Lexeme)}
    (h : List.Forall₂ Reads texts lss) :
    Reads (", ".intercalate texts) ([Lexeme.symbol .comma].intercalate lss) := by
  induction h with
  | nil =>
    intro rest hrest
    rfl
  | @cons text ls texts lss hfirst hrest ih =>
    cases hrest with
    | nil =>
      rw [List.intercalate_singleton]
      exact hfirst
    | @cons text' ls' texts lss =>
      intro cs hcs
      have hblank : Text.isBlank ' ' = true := by decide
      have htext : (", ".intercalate (text :: text' :: texts)).toList ++ cs =
          text.toList ++ Symbol.comma.char ::
            ' ' :: ((", ".intercalate (text' :: texts)).toList ++ cs) := by
        rw [String.intercalate_cons_cons]
        simp [Symbol.char]
      -- a comma separates, and the blank behind it is no lexeme
      rw [htext, hfirst _ (separated_symbol .comma _), lexemesOf_symbol, lexemesOf_blank hblank,
        ih cs hcs, List.intercalate_cons_cons, List.append_assoc, List.append_assoc]
      rfl

theorem call {name : String} (hname : IsName name) (h : Reads text ls) :
    Reads (name ++ "(" ++ text ++ ")")
      (.name name :: .symbol .leftParen :: (ls ++ [.symbol .rightParen])) := by
  intro rest hrest
  have htext : (name ++ "(" ++ text ++ ")").toList ++ rest =
      name.toList ++ Symbol.leftParen.char ::
        (text.toList ++ Symbol.rightParen.char :: rest) := by
    simp [Symbol.char]
  rw [htext, reads_name hname _ (separated_symbol .leftParen _), lexemesOf_symbol,
    h _ (separated_symbol .rightParen rest), lexemesOf_symbol]
  simp only [List.cons_append, List.nil_append, List.append_assoc]

end Reads

namespace Expr

/-- Arguments, if each of them has the lexemes it should have. -/
theorem reads_printArguments {arguments : List Expr}
    (h : ∀ e ∈ arguments, Reads e.print e.lexemes) :
    Reads (printArguments arguments) (argumentLexemes arguments) := by
  rw [printArguments_eq, argumentLexemes_eq]
  refine .intercalate (List.forall₂_map_left_iff.mpr (List.forall₂_map_right_iff.mpr ?_))
  exact List.forall₂_same.mpr h

/-- **The text of an expression has its lexemes.** -/
theorem Legible.reads_print {e : Expr} (h : e.Legible) : Reads e.print e.lexemes := by
  induction h with
  | num hfinite =>
    rw [print, lexemes]
    exact reads_number hfinite
  | var hname =>
    rw [print, lexemes]
    exact reads_name hname
  | group _ ih =>
    rw [print, lexemes]
    exact reads_parenthesize ih true
  | neg _ ih =>
    rw [print, lexemes]
    exact (reads_parenthesize ih _).minus
  | @binary op _ _ _ _ ihl ihr =>
    rw [print, lexemes]
    exact (reads_parenthesize ihl _).operation op (reads_parenthesize ihr _)
  | call hname _ ih =>
    rw [print, lexemes]
    exact (reads_printArguments ih).call hname

/-- **The tokens of the text** have these lexemes, up to its end. -/
theorem Legible.lexemes_scan_print {e : Expr} (h : e.Legible) :
    (scan e.print).map Token.lexeme = e.lexemes ++ [.endOfInput] := by
  have htext := h.reads_print [] separated_nil
  rw [List.append_nil, lexemesOf_nil] at htext
  rw [lexemes_scan, htext]

end Expr

end Abacus
