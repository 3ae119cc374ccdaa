import Abacus.Proofs.Expr.Verbatim

/-!
# Trees and the lexemes that they stand for

A tree stands for lexemes as it is, whether or not they are read as the tree again: nothing is put
in parentheses that is not in parentheses in the tree.  Different trees may stand for the same
lexemes.  But a tree is known by its lexemes and by what is left of it without its parentheses.
For one of its lexemes belongs to the top of the tree, and where this is can be told from what is
left; and it stands between as many pairs of parentheses as there are around the tree.

## Main definitions

* `Expr.standing`: the lexemes of a tree as it stands
* `Lexeme.depth`: how many parentheses are open after some lexemes
* `Expr.layers`: the pairs of parentheses around a tree

## Main results

* `Expr.Verbatim.lexemes_eq`: trees that are written as they stand
* `Expr.exists_top`: the lexeme of the top
* `Expr.eq_of_standing`: a tree is known by its lexemes and by itself without parentheses
-/

namespace Abacus

/-! ### Parentheses that are open -/

namespace Lexeme

/-- What a lexeme does to the number of parentheses that are open. -/
def opening : Lexeme → Int
  | symbol .leftParen => 1
  | symbol .rightParen => -1
  | _ => 0

/-- **How many parentheses are open** after some lexemes. -/
def depth (ls : List Lexeme) : Int := (ls.map opening).sum

/-- A lexeme other than a parenthesis. -/
def IsWord (l : Lexeme) : Prop := l ≠ symbol .leftParen ∧ l ≠ symbol .rightParen

instance (l : Lexeme) : Decidable l.IsWord := inferInstanceAs (Decidable (_ ∧ _))

/-- How many lexemes are no parentheses. -/
def words (ls : List Lexeme) : Nat := ls.countP (·.IsWord)

variable {l : Lexeme} {ls ls' : List Lexeme}

@[simp] theorem depth_nil : depth [] = 0 := rfl

@[simp] theorem depth_cons : depth (l :: ls) = l.opening + depth ls := List.sum_cons

@[simp] theorem depth_append : depth (ls ++ ls') = depth ls + depth ls' := by
  rw [depth, List.map_append, List.sum_append]
  rfl

@[simp] theorem words_nil : words [] = 0 := rfl

@[simp] theorem words_append : words (ls ++ ls') = words ls + words ls' := List.countP_append

@[simp] theorem words_cons_of_isWord (h : l.IsWord) : words (l :: ls) = words ls + 1 :=
  List.countP_cons_of_pos (by simpa using h)

@[simp] theorem words_leftParen : words (symbol .leftParen :: ls) = words ls :=
  List.countP_cons_of_neg (by decide)

@[simp] theorem words_rightParen : words (symbol .rightParen :: ls) = words ls :=
  List.countP_cons_of_neg (by decide)

theorem opening_of_isWord (h : l.IsWord) : l.opening = 0 := by
  obtain ⟨hleft, hright⟩ := h
  unfold opening
  split
  · exact absurd rfl hleft
  · exact absurd rfl hright
  · rfl

/-- An operator is no parenthesis. -/
@[simp] theorem isWord_operator (op : BinaryOp) : (symbol op.symbol).IsWord := by
  cases op <;> decide

/-- **A place among lexemes** is told by the number of words before it, if one stands there. -/
theorem eq_of_words_eq {before after before' after' : List Lexeme} {l l' : Lexeme}
    (h : before ++ l :: after = before' ++ l' :: after') (hl : l.IsWord) (hl' : l'.IsWord)
    (hwords : words before = words before') : before = before' ∧ l = l' ∧ after = after' := by
  -- If one side ended sooner, the word at its place would be one more before the other place.
  induction before generalizing before' with
  | nil =>
    cases before' with
    | nil =>
      obtain ⟨rfl, rfl⟩ := List.cons.inj h
      exact ⟨rfl, rfl, rfl⟩
    | cons x before' =>
      obtain ⟨rfl, -⟩ := List.cons.inj h
      rw [words_cons_of_isWord hl] at hwords
      cases hwords
  | cons x before ih =>
    cases before' with
    | nil =>
      obtain ⟨rfl, -⟩ := List.cons.inj h
      rw [words_cons_of_isWord hl'] at hwords
      cases hwords
    | cons x' before' =>
      obtain ⟨rfl, hrest⟩ := List.cons.inj h
      have hwords' : words before = words before' := by
        rw [words, words, List.countP_cons, List.countP_cons] at hwords
        exact Nat.add_right_cancel hwords
      obtain ⟨rfl, rfl, rfl⟩ := ih hrest hwords'
      exact ⟨rfl, rfl, rfl⟩

end Lexeme

open Lexeme hiding name number symbol

namespace Expr

/-! ### What a tree stands for -/

mutual

/-- **The lexemes of a tree as it stands.** -/
def standing : Expr → List Lexeme
  | num value => [.number (Decimal.plain value.abs)]
  | var name => [.name name]
  | group inner => .symbol .leftParen :: (standing inner ++ [.symbol .rightParen])
  | neg operand => .symbol .minus :: standing operand
  | trailingNeg operand => standing operand ++ [.symbol .minus]
  | binary op left right => standing left ++ .symbol op.symbol :: standing right
  | call name arguments =>
    .name name :: .symbol .leftParen :: (standingArguments arguments ++ [.symbol .rightParen])

/-- The lexemes of arguments between commas. -/
def standingArguments : List Expr → List Lexeme
  | [] => []
  | [argument] => standing argument
  | argument :: rest => standing argument ++ .symbol .comma :: standingArguments rest

end

theorem standingArguments_cons_cons (e e' : Expr) (rest : List Expr) :
    standingArguments (e :: e' :: rest) =
      e.standing ++ .symbol .comma :: standingArguments (e' :: rest) := by
  rw [standingArguments]
  intro hrest
  cases hrest

theorem standingArguments_eq (arguments : List Expr) :
    standingArguments arguments = [Lexeme.symbol .comma].intercalate (arguments.map standing) := by
  match arguments with
  | [] => rfl
  | [e] => exact List.intercalate_singleton.symm
  | e :: e' :: rest =>
    rw [standingArguments_cons_cons, standingArguments_eq (e' :: rest)]
    simp only [List.map_cons, List.intercalate_cons_cons, List.append_assoc,
      List.singleton_append]

/-- **A tree that is written as it stands** has these lexemes. -/
theorem Verbatim.lexemes_eq {e : Expr} (h : e.Verbatim) : e.lexemes = e.standing := by
  induction h with
  | num hvalue =>
    rw [lexemes, numberLexemes, hvalue.isNegative_eq, standing]
    rfl
  | var _ => rfl
  | group _ ih =>
    rw [lexemes, ih, standing]
    rfl
  | neg _ hparens ih =>
    rw [lexemes, ih, hparens, standing]
    rfl
  | binary _ _ hparens hparens' ihl ihr =>
    rw [lexemes, ihl, ihr, hparens, hparens', standing]
    rfl
  | call _ _ ih =>
    rw [lexemes, standing, argumentLexemes_eq, standingArguments_eq, List.map_congr_left ih]

theorem standing_wrap (wanted : Bool) (e : Expr) :
    (wrap wanted e).standing = parenthesizeLexemes wanted e.standing := by
  cases wanted <;> rfl

/-- **What is read back stands for the lexemes of the text.** -/
theorem Legible.standing_reread {e : Expr} (h : e.Legible) : e.reread.standing = e.lexemes := by
  induction h with
  | @num value hfinite =>
    rw [reread, signedNumber, lexemes, numberLexemes]
    cases (Binary64.ofFloat value).isNegative with
    | false => rfl
    | true =>
      have habs := Binary64.abs_eq_self (Binary64.isFinite_abs hfinite)
        (Binary64.isNegative_abs hfinite)
      rw [if_pos rfl, standing, standing, habs]
      rfl
  | var _ => rfl
  | group _ ih =>
    rw [reread, standing, lexemes, ih]
    rfl
  | neg _ ih => rw [reread, standing, lexemes, standing_wrap, ih]
  | binary _ _ ihl ihr => rw [reread, standing, lexemes, standing_wrap, standing_wrap, ihl, ihr]
  | @call name arguments _ _ ih =>
    have harguments : arguments.map (standing ∘ reread) = arguments.map lexemes :=
      List.map_congr_left ih
    rw [reread, standing, lexemes, rereadArguments_eq, standingArguments_eq, argumentLexemes_eq,
      List.map_map, harguments]

/-! ### The lexeme of the top -/

/-- The pairs of parentheses around a tree. -/
def layers : Expr → Nat
  | group inner => inner.layers + 1
  | _ => 0

/-- The words before the lexeme of the top, of a tree without parentheses. -/
def wordsBefore : Expr → Nat
  | binary _ left _ => words left.standing
  | trailingNeg operand => words operand.standing
  | _ => 0

mutual

/-- No parenthesis is left open. -/
theorem depth_standing (e : Expr) : depth e.standing = 0 := by
  match e with
  | num _ | var _ => rfl
  | group inner => simp [standing, depth_standing inner, opening]
  | neg operand => simp [standing, depth_standing operand, opening]
  | trailingNeg operand => simp [standing, depth_standing operand, opening]
  | binary op left right =>
    simp [standing, depth_standing left, depth_standing right,
      opening_of_isWord (isWord_operator op)]
  | call _ arguments => simp [standing, depth_standingArguments arguments, opening]

theorem depth_standingArguments (arguments : List Expr) :
    depth (standingArguments arguments) = 0 := by
  match arguments with
  | [] => rfl
  | [e] => exact depth_standing e
  | e :: e' :: rest =>
    rw [standingArguments_cons_cons]
    simp [depth_standing e, depth_standingArguments (e' :: rest), opening]

end

mutual

/-- The words are those of the tree without parentheses. -/
theorem words_standing_ungrouped (e : Expr) : words e.ungrouped.standing = words e.standing := by
  match e with
  | num _ | var _ => rfl
  | group inner => simp [ungrouped, standing, words_standing_ungrouped inner]
  | neg operand =>
    rw [ungrouped, standing, standing, words_cons_of_isWord (by decide),
      words_cons_of_isWord (by decide), words_standing_ungrouped operand]
  | trailingNeg operand =>
    rw [ungrouped, standing, standing, words_append, words_append,
      words_standing_ungrouped operand]
  | binary op left right =>
    simp [ungrouped, standing, words_standing_ungrouped left, words_standing_ungrouped right]
  | call name arguments =>
    have hname : (Lexeme.name name).IsWord := ⟨nofun, nofun⟩
    simp [ungrouped, standing, hname, words_standingArguments_ungrouped arguments]

theorem words_standingArguments_ungrouped (arguments : List Expr) :
    words (standingArguments (ungroupedArguments arguments)) =
      words (standingArguments arguments) := by
  match arguments with
  | [] => rfl
  | [e] => exact words_standing_ungrouped e
  | e :: e' :: rest =>
    have hrest := words_standingArguments_ungrouped (e' :: rest)
    rw [ungroupedArguments] at hrest
    rw [ungroupedArguments, ungroupedArguments, standingArguments_cons_cons,
      standingArguments_cons_cons, words_append, words_append, words_cons_of_isWord (by decide),
      words_cons_of_isWord (by decide), words_standing_ungrouped e, hrest]

end

/-- **The lexeme of the top of a tree** has as many words before it as can be told from the tree
without parentheses, and as many parentheses are open there as stand around the tree. -/
theorem exists_top (e : Expr) :
    ∃ before l after, e.standing = before ++ l :: after ∧ l.IsWord ∧
      words before = e.ungrouped.wordsBefore ∧ depth before = e.layers := by
  match e with
  | group inner =>
    -- one parenthesis more is open there, and no word more stands before it
    obtain ⟨before, l, after, hstanding, hl, hwords, hdepth⟩ := exists_top inner
    refine ⟨.symbol .leftParen :: before, l, after ++ [.symbol .rightParen], ?_, hl, ?_, ?_⟩
    · rw [standing, hstanding, List.cons_append, List.append_assoc, List.cons_append]
    · rw [words_leftParen, hwords, ungrouped]
    · rw [depth_cons, hdepth, layers, opening]
      omega
  | num value => exact ⟨[], _, [], rfl, ⟨nofun, nofun⟩, rfl, rfl⟩
  | var name => exact ⟨[], _, [], rfl, ⟨nofun, nofun⟩, rfl, rfl⟩
  | neg operand => exact ⟨[], .symbol .minus, operand.standing, rfl, by decide, rfl, rfl⟩
  | call name arguments => exact ⟨[], .name name, _, rfl, ⟨nofun, nofun⟩, rfl, rfl⟩
  | trailingNeg operand =>
    refine ⟨operand.standing, .symbol .minus, [], rfl, by decide, ?_, depth_standing operand⟩
    rw [ungrouped, wordsBefore, words_standing_ungrouped]
  | binary op left right =>
    refine ⟨left.standing, .symbol op.symbol, right.standing, rfl, isWord_operator op, ?_,
      depth_standing left⟩
    rw [ungrouped, wordsBefore, words_standing_ungrouped]

/-- **The parentheses around a tree** can be told from its lexemes. -/
theorem layers_eq {e e' : Expr} (hungrouped : e.ungrouped = e'.ungrouped)
    (hstanding : e.standing = e'.standing) : e.layers = e'.layers := by
  -- the lexeme of the top stands at one place in both trees, so that the depth is one and the same
  obtain ⟨before, l, after, heq, hl, hwords, hdepth⟩ := e.exists_top
  obtain ⟨before', l', after', heq', hl', hwords', hdepth'⟩ := e'.exists_top
  rw [hungrouped, ← hwords'] at hwords
  rw [heq, heq'] at hstanding
  obtain ⟨rfl, -, -⟩ := eq_of_words_eq hstanding hl hl' hwords
  exact Int.ofNat_inj.mp (hdepth.symm.trans hdepth')

/-- Trees that are the same without parentheses stand for as many words. -/
theorem words_standing_eq {e e' : Expr} (h : e.ungrouped = e'.ungrouped) :
    words e.standing = words e'.standing := by
  rw [← words_standing_ungrouped e, h, words_standing_ungrouped e']

mutual

/-- **A tree is known** by its lexemes and by what is left of it without its parentheses. -/
theorem eq_of_standing {e e' : Expr} (hungrouped : e.ungrouped = e'.ungrouped)
    (hstanding : e.standing = e'.standing) : e = e' := by
  -- so a group cannot be the same as a tree that is none
  have hlayers := layers_eq hungrouped hstanding
  match e, e' with
  | group inner, group inner' =>
    have hinner : inner.ungrouped = inner'.ungrouped := hungrouped
    rw [eq_of_standing hinner (List.append_cancel_right (List.cons.inj hstanding).2)]
  | num _, num _ | var _, var _ => exact hungrouped
  | neg operand, neg operand' =>
    rw [eq_of_standing (neg.inj hungrouped) (List.cons.inj hstanding).2]
  | trailingNeg operand, trailingNeg operand' =>
    rw [eq_of_standing (trailingNeg.inj hungrouped) (List.append_cancel_right hstanding)]
  | binary op left right, binary op' left' right' =>
    obtain ⟨hop, hleft, hright⟩ := binary.inj hungrouped
    -- both operators stand behind as many words
    obtain ⟨hleft', -, hright'⟩ := eq_of_words_eq hstanding (isWord_operator op)
      (isWord_operator op') (words_standing_eq hleft)
    rw [hop, eq_of_standing hleft hleft', eq_of_standing hright hright']
  | call name arguments, call name' arguments' =>
    obtain ⟨hname, harguments⟩ := call.inj hungrouped
    have harguments' :=
      List.append_cancel_right (List.cons.inj (List.cons.inj hstanding).2).2
    rw [hname, eq_of_standingArguments harguments harguments']

theorem eq_of_standingArguments {es es' : List Expr}
    (hungrouped : ungroupedArguments es = ungroupedArguments es')
    (hstanding : standingArguments es = standingArguments es') : es = es' := by
  match es, es' with
  | [], [] => rfl
  | [e], [e'] => rw [eq_of_standing (List.cons.inj hungrouped).1 hstanding]
  | [_], _ :: _ :: _ | _ :: _ :: _, [_] => cases (List.cons.inj hungrouped).2
  | e :: e₁ :: rest, e' :: e₁' :: rest' =>
    obtain ⟨he, hrest⟩ := List.cons.inj hungrouped
    rw [standingArguments_cons_cons, standingArguments_cons_cons] at hstanding
    obtain ⟨he', -, hrest'⟩ :=
      eq_of_words_eq hstanding (by decide) (by decide) (words_standing_eq he)
    rw [eq_of_standing he he', eq_of_standingArguments hrest hrest']

end

end Expr

end Abacus
