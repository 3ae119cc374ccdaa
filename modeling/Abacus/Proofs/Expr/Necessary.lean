import Abacus.Proofs.Expr.Regrouped

/-!
# No parentheses are added in vain

Leave out one pair of the parentheses that the text of a tree has around operands.  What is left
has the lexemes of a tree as it stands: of what is read back of the whole text, but for one pair.
These lexemes are read, as those of any tree are.  But they are not read as this tree, since it is
not written as it stands.  And what they are read as is another tree without parentheses too, since
a tree is known by its lexemes and by itself without parentheses.

## Main definitions

* `Expr.LacksPair`: the text of a tree but for one pair of the parentheses that are added
* `Expr.LeavesOut`: one text is another one without the parentheses around an operand
* `Expr.Tells`: the lexemes of a text are those of a tree as it stands

## Main results

* `Expr.LacksPair.leavesOut`: a pair is all that is missing
* `Expr.Legible.exists_lacksPair_iff`: a pair can be missing just when one is added
* `Expr.LacksPair.exists_tells`: the tree of the text that lacks a pair
* `Expr.LacksPair.parse_ungrouped_ne`: every pair of parentheses is necessary
-/

namespace Abacus

namespace Expr

variable {e : Expr} {text : String}

/-! ### Texts that lack a pair -/

/-- **The text of a tree but for one pair** of the parentheses that are added around operands.  It
is missing around an operand of the top, or in a part of the tree.  All others are written, and so
are those that are nodes and those of calls. -/
inductive LacksPair : Expr → String → Prop
  | operand {operand : Expr} : operand.needsParensAfterSign = true →
    LacksPair (.neg operand) ("-" ++ operand.print)
  | left {op : BinaryOp} {left right : Expr} : left.needsParens op .left = true →
    LacksPair (.binary op left right)
      (left.print ++ spaced op ++ parenthesize (right.needsParens op .right) right.print)
  | right {op : BinaryOp} {left right : Expr} : right.needsParens op .right = true →
    LacksPair (.binary op left right)
      (parenthesize (left.needsParens op .left) left.print ++ spaced op ++ right.print)
  | inGroup {inner : Expr} {text : String} : LacksPair inner text →
    LacksPair (.group inner) ("(" ++ text ++ ")")
  | inOperand {operand : Expr} {text : String} : LacksPair operand text →
    LacksPair (.neg operand) ("-" ++ parenthesize operand.needsParensAfterSign text)
  | inLeft {op : BinaryOp} {left right : Expr} {text : String} : LacksPair left text →
    LacksPair (.binary op left right)
      (parenthesize (left.needsParens op .left) text ++ spaced op ++
        parenthesize (right.needsParens op .right) right.print)
  | inRight {op : BinaryOp} {left right : Expr} {text : String} : LacksPair right text →
    LacksPair (.binary op left right)
      (parenthesize (left.needsParens op .left) left.print ++ spaced op ++
        parenthesize (right.needsParens op .right) text)
  | inArgument {name : String} {argument : Expr} {text : String} (before after : List Expr) :
    LacksPair argument text → LacksPair (.call name (before ++ argument :: after))
      (name ++ "(" ++ ", ".intercalate (before.map print ++ text :: after.map print) ++ ")")

/-- **The second text is the first** without the parentheses around an operand. -/
def LeavesOut (text text' : String) : Prop :=
  ∃ (before : String) (operand : Expr) (after : String),
    text = before ++ "(" ++ operand.print ++ ")" ++ after ∧
      text' = before ++ operand.print ++ after

namespace LeavesOut

variable {text text' : String}

/-- The parentheses around an operand, and nothing else. -/
theorem pair (operand : Expr) : LeavesOut (Expr.parenthesize true operand.print) operand.print :=
  ⟨"", operand, "", by rw [String.empty_append, String.append_empty]; rfl,
    by rw [String.empty_append, String.append_empty]⟩

theorem prepend (h : LeavesOut text text') (front : String) :
    LeavesOut (front ++ text) (front ++ text') := by
  obtain ⟨before, operand, after, rfl, rfl⟩ := h
  exact ⟨front ++ before, operand, after, by simp only [String.append_assoc],
    by simp only [String.append_assoc]⟩

theorem append (h : LeavesOut text text') (back : String) :
    LeavesOut (text ++ back) (text' ++ back) := by
  obtain ⟨before, operand, after, rfl, rfl⟩ := h
  exact ⟨before, operand, after ++ back, by simp only [String.append_assoc],
    by simp only [String.append_assoc]⟩

theorem parenthesize (h : LeavesOut text text') (wanted : Bool) :
    LeavesOut (parenthesize wanted text) (parenthesize wanted text') := by
  cases wanted with
  | false => exact h
  | true => exact (h.prepend "(").append ")"

end LeavesOut

/-- Around a text between others, the same stands in front of it and behind it whatever it is. -/
theorem exists_intercalate_eq (separator : String) (before after : List String) :
    ∃ front back, ∀ text,
      separator.intercalate (before ++ text :: after) = front ++ text ++ back := by
  obtain ⟨back, hback⟩ :
      ∃ back, ∀ text, separator.intercalate (text :: after) = text ++ back := by
    cases after with
    | nil => exact ⟨"", fun text => by rw [String.intercalate_singleton, String.append_empty]⟩
    | cons next rest =>
      refine ⟨separator ++ separator.intercalate (next :: rest), fun text => ?_⟩
      rw [String.intercalate_cons_cons, String.append_assoc]
  cases before with
  | nil => exact ⟨"", back, fun text => by rw [List.nil_append, hback, String.empty_append]⟩
  | cons first before =>
    refine ⟨separator.intercalate (first :: before) ++ separator, back, fun text => ?_⟩
    rw [String.intercalate_append_of_ne_nil (List.cons_ne_nil _ _) (List.cons_ne_nil _ _), hback]
    simp only [String.append_assoc]

/-- **A pair is all that is missing.** -/
theorem LacksPair.leavesOut (h : e.LacksPair text) : LeavesOut e.print text := by
  induction h with
  -- an operand without the parentheses that are added around it
  | operand hparens =>
    rw [print, hparens]
    exact (LeavesOut.pair _).prepend "-"
  | left hparens =>
    rw [print, hparens]
    exact ((LeavesOut.pair _).append _).append _
  | right hparens =>
    rw [print, hparens]
    exact (LeavesOut.pair _).prepend _
  -- what is left out of a part is left out of the whole
  | inGroup _ ih =>
    rw [print]
    exact (ih.prepend "(").append ")"
  | inOperand _ ih =>
    rw [print]
    exact (ih.parenthesize _).prepend "-"
  | inLeft _ ih =>
    rw [print]
    exact ((ih.parenthesize _).append _).append _
  | inRight _ ih =>
    rw [print]
    exact (ih.parenthesize _).prepend _
  | @inArgument name argument text before after _ ih =>
    obtain ⟨front, back, hbetween⟩ :=
      exists_intercalate_eq ", " (before.map print) (after.map print)
    rw [print, printArguments_eq, List.map_append, List.map_cons, hbetween, hbetween]
    exact (((ih.prepend front).append back).prepend (name ++ "(")).append ")"

/-! ### Pairs that are added -/

/-- Where a pair is missing, the tree is not written as it stands. -/
theorem LacksPair.not_verbatim_signed (h : e.LacksPair text) : ¬ e.signed.Verbatim := by
  intro hverbatim
  induction h with
  | operand hparens =>
    cases hverbatim with
    | neg _ hnone =>
      rw [needsParensAfterSign_signed, hparens] at hnone
      cases hnone
  | left hparens =>
    cases hverbatim with
    | binary _ _ hnone _ =>
      rw [needsParens_signed, hparens] at hnone
      cases hnone
  | right hparens =>
    cases hverbatim with
    | binary _ _ _ hnone =>
      rw [needsParens_signed, hparens] at hnone
      cases hnone
  | inGroup _ ih => cases hverbatim with | group hinner => exact ih hinner
  | inOperand _ ih => cases hverbatim with | neg hoperand _ => exact ih hoperand
  | inLeft _ ih => cases hverbatim with | binary hleft _ _ _ => exact ih hleft
  | inRight _ ih => cases hverbatim with | binary _ hright _ _ => exact ih hright
  | inArgument before after _ ih =>
    rw [signed, signedArguments_eq, List.map_append, List.map_cons] at hverbatim
    cases hverbatim with
    | call _ harguments => exact ih (harguments _ (List.mem_append_right _ List.mem_cons_self))

/-- Where none can be missing, it is. -/
theorem Legible.verbatim_signed (he : e.Legible) (h : ∀ text, ¬ e.LacksPair text) :
    e.signed.Verbatim := by
  induction he with
  | @num value hfinite =>
    rw [signed, signedNumber]
    cases hsign : (Binary64.ofFloat value).isNegative with
    | false => exact .num (.finite hfinite hsign)
    | true =>
      exact .neg (.num (.finite (Binary64.isFinite_abs hfinite) (Binary64.isNegative_abs hfinite)))
        rfl
  | var hname => exact .var hname
  | group _ ih => exact .group (ih fun text hlacks => h _ (.inGroup hlacks))
  | @neg operand _ ih =>
    refine .neg (ih fun text hlacks => h _ (.inOperand hlacks)) ?_
    rw [needsParensAfterSign_signed, Bool.eq_false_iff]
    exact fun hparens => h _ (.operand hparens)
  | @binary op left right _ _ ihl ihr =>
    refine .binary (ihl fun text hlacks => h _ (.inLeft hlacks))
      (ihr fun text hlacks => h _ (.inRight hlacks)) ?_ ?_
    · rw [needsParens_signed, Bool.eq_false_iff]
      exact fun hparens => h _ (.left hparens)
    · rw [needsParens_signed, Bool.eq_false_iff]
      exact fun hparens => h _ (.right hparens)
  | @call name arguments hname _ ih =>
    refine .call hname fun e' he' => ?_
    rw [signedArguments_eq] at he'
    obtain ⟨argument, hmem, rfl⟩ := List.mem_map.mp he'
    obtain ⟨before, after, rfl⟩ := List.append_of_mem hmem
    exact ih argument hmem fun text hlacks => h _ (.inArgument before after hlacks)

/-- **A pair can be missing just when one is added**, to the tree with its negative numbers
replaced. -/
theorem Legible.exists_lacksPair_iff (he : e.Legible) :
    (∃ text, e.LacksPair text) ↔ ¬ e.signed.Verbatim := by
  constructor
  · rintro ⟨text, h⟩
    exact h.not_verbatim_signed
  · intro hverbatim
    by_contra hnone
    exact hverbatim (he.verbatim_signed (not_exists.mp hnone))

/-! ### The tree of a text that lacks a pair -/

/-- **A text tells the tree `e'`**: it has the lexemes of this tree as it stands.  But for
parentheses this is the tree `e`, with its negative numbers replaced. -/
structure Tells (text : String) (e' e : Expr) : Prop where
  reads : Reads text e'.standing
  signless : e'.Signless
  ungrouped_eq : e'.ungrouped = e.signed.ungrouped

/-- The whole text tells what is read back. -/
theorem Legible.tells (h : e.Legible) : Tells e.print e.reread e :=
  ⟨h.standing_reread ▸ h.reads_print, h.signless_reread, ungrouped_reread e⟩

namespace Tells

variable {text' : String} {e' left left' right right' : Expr}

theorem wrap (h : Tells text e' e) (wanted : Bool) :
    Tells (parenthesize wanted text) (wrap wanted e') e := by
  refine ⟨?_, h.signless.wrap wanted, ?_⟩
  · rw [standing_wrap]
    exact reads_parenthesize h.reads wanted
  · rw [ungrouped_wrap, h.ungrouped_eq]

theorem group (h : Tells text e' e) : Tells ("(" ++ text ++ ")") (.group e') (.group e) := by
  refine ⟨reads_parenthesize h.reads true, .group h.signless, ?_⟩
  rw [ungrouped, signed, ungrouped, h.ungrouped_eq]

theorem neg (h : Tells text e' e) : Tells ("-" ++ text) (.neg e') (.neg e) := by
  refine ⟨h.reads.minus, .neg h.signless, ?_⟩
  rw [ungrouped, signed, ungrouped, h.ungrouped_eq]

theorem binary (h : Tells text left' left) (op : BinaryOp) (h' : Tells text' right' right) :
    Tells (text ++ spaced op ++ text') (.binary op left' right') (.binary op left right) := by
  refine ⟨h.reads.operation op h'.reads, .binary h.signless h'.signless, ?_⟩
  rw [ungrouped, signed, ungrouped, h.ungrouped_eq, h'.ungrouped_eq]

/-- One argument among others, which are written as they are. -/
theorem argument {name : String} (hname : IsName name) {before after : List Expr}
    (hbefore : ∀ x ∈ before, x.Legible) (h : Tells text e' e) (hafter : ∀ x ∈ after, x.Legible) :
    Tells (name ++ "(" ++ ", ".intercalate (before.map print ++ text :: after.map print) ++ ")")
      (.call name (before.map reread ++ e' :: after.map reread))
      (.call name (before ++ e :: after)) := by
  have hothers {arguments : List Expr} (hlegible : ∀ x ∈ arguments, x.Legible) :
      List.Forall₂ Reads (arguments.map print) (arguments.map (standing ∘ reread)) := by
    rw [List.forall₂_map_left_iff, List.forall₂_map_right_iff, List.forall₂_same]
    exact fun x hx => (hlegible x hx).tells.reads
  refine ⟨?_, .call hname ?_, ?_⟩
  · apply Reads.call hname
    rw [standingArguments_eq, List.map_append, List.map_cons, List.map_map, List.map_map]
    exact .intercalate (List.rel_append (hothers hbefore) (.cons h.reads (hothers hafter)))
  · simp only [List.forall_mem_append, List.forall_mem_cons, List.forall_mem_map]
    exact ⟨fun x hx => (hbefore x hx).signless_reread, h.signless,
      fun x hx => (hafter x hx).signless_reread⟩
  · have hsame : ungrouped ∘ reread = ungrouped ∘ signed := funext ungrouped_reread
    simp only [ungrouped, signed, ungroupedArguments_eq, signedArguments_eq, List.map_append,
      List.map_cons, List.map_map, hsame, h.ungrouped_eq]

end Tells

/-- **A text that lacks a pair tells a tree** that is not written as it stands: an operand has no
parentheses in it where they are added. -/
theorem LacksPair.exists_tells (h : e.LacksPair text) (he : e.Legible) :
    ∃ e' : Expr, Tells text e' e ∧ ¬ e'.Verbatim := by
  induction h with
  -- an operand that should be in parentheses and is not
  | operand hparens =>
    cases he with
    | neg hoperand =>
      refine ⟨_, hoperand.tells.neg, fun hverbatim => ?_⟩
      cases hverbatim with
      | neg _ hnone =>
        rw [needsParensAfterSign_reread, hparens] at hnone
        cases hnone
  | left hparens =>
    cases he with
    | binary hleft hright =>
      refine ⟨_, hleft.tells.binary _ (hright.tells.wrap _), fun hverbatim => ?_⟩
      cases hverbatim with
      | binary _ _ hnone _ =>
        rw [needsParens_reread, hparens] at hnone
        cases hnone
  | right hparens =>
    cases he with
    | binary hleft hright =>
      refine ⟨_, (hleft.tells.wrap _).binary _ hright.tells, fun hverbatim => ?_⟩
      cases hverbatim with
      | binary _ _ _ hnone =>
        rw [needsParens_reread, hparens] at hnone
        cases hnone
  -- a tree is not written as it stands if a part of it is not
  | inGroup _ ih =>
    cases he with
    | group hinner =>
      obtain ⟨inner', htells, hnot⟩ := ih hinner
      refine ⟨_, htells.group, fun hverbatim => ?_⟩
      cases hverbatim with
      | group hinner' => exact hnot hinner'
  | inOperand _ ih =>
    cases he with
    | neg hoperand =>
      obtain ⟨operand', htells, hnot⟩ := ih hoperand
      refine ⟨_, (htells.wrap _).neg, fun hverbatim => ?_⟩
      cases hverbatim with
      | neg hoperand' _ => exact hnot (verbatim_of_wrap hoperand')
  | inLeft _ ih =>
    cases he with
    | binary hleft hright =>
      obtain ⟨left', htells, hnot⟩ := ih hleft
      refine ⟨_, (htells.wrap _).binary _ (hright.tells.wrap _), fun hverbatim => ?_⟩
      cases hverbatim with
      | binary hleft' _ _ _ => exact hnot (verbatim_of_wrap hleft')
  | inRight _ ih =>
    cases he with
    | binary hleft hright =>
      obtain ⟨right', htells, hnot⟩ := ih hright
      refine ⟨_, (hleft.tells.wrap _).binary _ (htells.wrap _), fun hverbatim => ?_⟩
      cases hverbatim with
      | binary _ hright' _ _ => exact hnot (verbatim_of_wrap hright')
  | inArgument before after _ ih =>
    cases he with
    | call hname harguments =>
      obtain ⟨hbefore, hothers⟩ := List.forall_mem_append.mp harguments
      obtain ⟨hargument, hafter⟩ := List.forall_mem_cons.mp hothers
      obtain ⟨argument', htells, hnot⟩ := ih hargument
      refine ⟨_, htells.argument hname hbefore hafter, fun hverbatim => ?_⟩
      cases hverbatim with
      | call _ harguments' =>
        exact hnot (harguments' argument' (List.mem_append_right _ List.mem_cons_self))

/-! ### What is read -/

/-- **Every pair of parentheses that is added is necessary.**  The text of a tree without one of
these pairs is parsed as another tree, even when all parentheses are left out of both, unless it is
too deep.  If the tree has negative numbers, it is not the tree with negations in their place
either. -/
theorem LacksPair.parse_ungrouped_ne (h : e.LacksPair text) (he : e.Legible)
    (hdeep : ∀ limit span, parse text ≠ .error (.tooDeep limit span)) :
    LeavesOut e.print text ∧ ∃ t, parse text = .ok t ∧ t.ungrouped ≠ e.ungrouped ∧
      t.ungrouped ≠ e.signed.ungrouped := by
  obtain ⟨e', htells, hnot⟩ := h.exists_tells he
  -- the canonical tree with the same lexemes is what is read
  obtain ⟨t, ht, hstanding⟩ := htells.signless.groups.alone
  have hparse : parse text = .ok t := by
    rcases ht.parse_or_tooDeep (hstanding ▸ htells.reads) with hparse | ⟨span, hspan⟩
    · exact hparse
    · exact absurd hspan (hdeep maxNesting span)
  -- what is read is written as it stands, and the tree that the text tells is not
  have hsigned : t.ungrouped ≠ e.signed.ungrouped := by
    intro hsame
    obtain rfl := eq_of_standing (hsame.trans htells.ungrouped_eq.symm) hstanding
    exact hnot ht.verbatim
  refine ⟨h.leavesOut, t, hparse, ?_, hsigned⟩
  -- if it were the tree itself, that would have no negative numbers to be replaced
  intro hsame
  apply hsigned
  rw [ungrouped_signed, ← hsame, ← ungrouped_signed, ht.signless.signed_eq]

/-- The innermost of four pairs is missing, in the second argument of a call. -/
theorem LacksPair.parse_ungrouped_ne_innermost :
    let difference := binary .subtract (var "a") (var "b")
    let negated := neg (binary .multiply (var "y") difference)
    let base := binary .subtract (var "x") (binary .subtract negated (num 2.5))
    let e := call "f" [var "x", binary .power base (num 3.0)]
    let text := "f(x, (x - (-(y * a - b) - 2.5))^3)"
    e.print = "f(x, (x - (-(y * (a - b)) - 2.5))^3)" ∧ e.LacksPair text ∧ e.Legible ∧
      (∀ limit span, parse text ≠ .error (.tooDeep limit span)) ∧ LeavesOut e.print text ∧
        ∃ t, parse text = .ok t ∧ t.ungrouped ≠ e.ungrouped ∧ t.ungrouped ≠ e.signed.ungrouped := by
  intro difference negated base e text
  have hlacks : e.LacksPair text := by
    obtain ⟨text', hlacks, htext⟩ : ∃ text', e.LacksPair text' ∧ text' = text :=
      ⟨_, .inArgument [var "x"] [] (.inLeft (.inRight (.inLeft (.inOperand (.right rfl))))),
        by decide +kernel⟩
    exact htext ▸ hlacks
  have hname (s : String) (hs : IsName s) : (var s).Legible := .var hs
  have hx : (var "x").Legible := .var (by decide +kernel)
  have hdifference : difference.Legible :=
    .binary (hname _ (by decide +kernel)) (hname _ (by decide +kernel))
  have hnegated : negated.Legible := .neg (.binary (hname _ (by decide +kernel)) hdifference)
  have hbase : base.Legible := .binary hx (.binary hnegated (.num (by decide +kernel)))
  have he : e.Legible := by
    refine .call (by decide +kernel) (List.forall_mem_cons.mpr ⟨hx, ?_⟩)
    exact List.forall_mem_singleton.mpr (.binary hbase (.num (by decide +kernel)))
  have hdeep : ∀ limit span, parse text ≠ .error (.tooDeep limit span) := by
    have hparses : (parse text).isOk = true := by decide +kernel
    intro limit span hspan
    rw [hspan] at hparses
    cases hparses
  exact ⟨by decide +kernel, hlacks, he, hdeep, hlacks.parse_ungrouped_ne he hdeep⟩

end Expr

end Abacus
