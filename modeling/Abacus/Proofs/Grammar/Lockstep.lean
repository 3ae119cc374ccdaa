import Abacus.Proofs.Grammar.Spelling
import Abacus.Proofs.Token.Spacing

/-!
# Readers in step

Readers look at the lexemes of tokens only, and at their places to tell of an error.  So on two
lists of tokens with the same lexemes they move in step: they take as many tokens off the one as
off the other and answer the same, or they stop at the same token of both with the same complaint
about it.

## Main definitions

* `Complaint`: what an error says of a token
* `InStep`: the same number of tokens taken off two lists, and the same lexemes left
* `SameAnswer`: results that are in step

## Main results

* `Readers.keepStep_ofNat`: readers keep lists in step
* `parse_respaced`: the blanks of a text do not matter
-/

namespace Abacus

/-- What an error says of a token. -/
inductive Complaint where
  | unexpected (expected : String)
  | trailing
  | invalidNumber
  | tooDeep (limit : Nat)
deriving DecidableEq, Repr

/-- **The error of a complaint** about a token, which it describes and locates. -/
def Complaint.about (complaint : Complaint) (t : Token) : ParseError :=
  match complaint with
  | unexpected expected => .unexpected expected t.describe t.span
  | trailing => .trailing t.describe t.span
  | invalidNumber => .invalidNumber t.lexeme.text t.span
  | tooDeep limit => .tooDeep limit t.span

theorem Complaint.span_about (complaint : Complaint) (t : Token) :
    (complaint.about t).span = t.span := by
  cases complaint <;> rfl

/-! ### Lists in step -/

section

-- the tokens of two texts, and what a reader has in front of it
variable {whole whole' ts ts' us us' : List Token} {l : Lexeme} {a a' : Span}

/-- **Two lists in step** are left over when equally many tokens are taken off the tokens of two
texts.  They have the same lexemes, the end of input among them. -/
structure InStep (whole whole' ts ts' : List Token) : Prop where
  place : ∃ n, ts = whole.drop n ∧ ts' = whole'.drop n
  lexemes : ts.map Token.lexeme = ts'.map Token.lexeme
  ends : .endOfInput ∈ ts.map Token.lexeme

/-- The two errors are the same complaint about tokens of the same number and lexeme. -/
def SameFault (whole whole' : List Token) (e e' : ParseError) : Prop :=
  ∃ (complaint : Complaint) (i : Nat) (t t' : Token), whole[i]? = some t ∧ whole'[i]? = some t' ∧
    t.lexeme = t'.lexeme ∧ e = complaint.about t ∧ e' = complaint.about t'

namespace InStep

theorem refl (h : whole.map Token.lexeme = whole'.map Token.lexeme)
    (hends : .endOfInput ∈ whole.map Token.lexeme) : InStep whole whole' whole whole' :=
  ⟨⟨0, rfl, rfl⟩, h, hends⟩

/-- Tokens of one lexeme stand in front. -/
theorem exists_cons (h : InStep whole whole' ts ts') :
    ∃ l a a' us us', ts = ⟨l, a⟩ :: us ∧ ts' = ⟨l, a'⟩ :: us' := by
  obtain ⟨-, hlexemes, hends⟩ := h
  obtain ⟨⟨l, a⟩, us, rfl⟩ : ∃ t us, ts = t :: us :=
    List.exists_cons_of_ne_nil (by rintro rfl; cases hends)
  obtain ⟨⟨l', a'⟩, us', rfl, rfl, -⟩ := List.map_eq_cons_iff.mp hlexemes.symm
  exact ⟨l', a, a', us, us', rfl, rfl⟩

/-- The tokens in front are taken off both lists, if they are not the end of input. -/
theorem behind (h : InStep whole whole' (⟨l, a⟩ :: us) (⟨l, a'⟩ :: us'))
    (hl : l ≠ .endOfInput) : InStep whole whole' us us' := by
  obtain ⟨⟨n, hn, hn'⟩, hlexemes, hends⟩ := h
  refine ⟨⟨n + 1, ?_, ?_⟩, (List.cons.inj hlexemes).2, ?_⟩
  · rw [← List.tail_drop, ← hn, List.tail_cons]
  · rw [← List.tail_drop, ← hn', List.tail_cons]
  · exact (List.mem_cons.mp hends).resolve_left hl.symm

/-- Either list gives rise to the complaint at the token in front of it. -/
theorem fault (h : InStep whole whole' ts ts') (complaint : Complaint) :
    SameFault whole whole' (complaint.about (Reader.front ts))
      (complaint.about (Reader.front ts')) := by
  obtain ⟨n, hn, hn'⟩ := h.place
  obtain ⟨l, a, a', us, us', rfl, rfl⟩ := h.exists_cons
  refine ⟨complaint, n, ⟨l, a⟩, ⟨l, a'⟩, ?_, ?_, rfl, rfl, rfl⟩
  · rw [← List.head?_drop, ← hn, List.head?_cons]
  · rw [← List.head?_drop, ← hn', List.head?_cons]

/-- So they are if they are a symbol. -/
theorem behind_symbol {s : Symbol}
    (h : InStep whole whole' (⟨.symbol s, a⟩ :: us) (⟨.symbol s, a'⟩ :: us')) :
    InStep whole whole' us us' := h.behind (by simp)

theorem length_eq (h : InStep whole whole' ts ts') : ts.length = ts'.length := by
  have hlength := congrArg List.length h.lexemes
  rwa [List.length_map, List.length_map] at hlength

theorem chainOperator?_eq (h : InStep whole whole' ts ts') (least : Precedence) :
    Reader.chainOperator? least ts = Reader.chainOperator? least ts' := by
  obtain ⟨l, a, a', us, us', rfl, rfl⟩ := h.exists_cons
  rfl

end InStep

/-! ### Answers in step -/

namespace Reader

variable {α β : Type}

/-- **Results in step**: one value, with lists in step left over, or the same fault. -/
inductive SameAnswer (whole whole' : List Token) :
    Except ParseError (α × List Token) → Except ParseError (α × List Token) → Prop
  | ok {value : α} {ts ts' : List Token} : InStep whole whole' ts ts' →
    SameAnswer whole whole' (.ok (value, ts)) (.ok (value, ts'))
  | error {e e' : ParseError} : SameFault whole whole' e e' →
    SameAnswer whole whole' (.error e) (.error e')

/-- **The reader keeps lists in step.** -/
def KeepsStep (whole whole' : List Token) (reader : Reader α) : Prop :=
  ∀ ts ts', InStep whole whole' ts ts' → SameAnswer whole whole' (reader ts) (reader ts')

theorem SameAnswer.bind {r r' : Except ParseError (α × List Token)}
    {next next' : α × List Token → Except ParseError (β × List Token)}
    (h : SameAnswer whole whole' r r')
    (hnext : ∀ value ts ts', InStep whole whole' ts ts' →
      SameAnswer whole whole' (next (value, ts)) (next' (value, ts'))) :
    SameAnswer whole whole' (r >>= next) (r' >>= next') := by
  cases h with
  | ok hstep => exact hnext _ _ _ hstep
  | error hfault => exact .error hfault

/-! ### Primaries -/

theorem arguments_of_ne (expression : Reader Expr) (h : l ≠ .symbol .rightParen) :
    arguments expression (⟨l, a⟩ :: us) =
      argumentList expression ((⟨l, a⟩ :: us : List Token).length + 1) (⟨l, a⟩ :: us) := by
  unfold arguments
  split
  · next heq => exact absurd (congrArg Token.lexeme (List.cons.inj heq).1) h
  · rfl

section

variable {expression : Reader Expr} (keeps : KeepsStep whole whole' expression)

include keeps

theorem argumentList_keepsStep (more : Nat) :
    KeepsStep whole whole' (argumentList expression more) := by
  -- on how many arguments may follow, which is the same for both lists
  induction more with
  | zero => exact fun ts ts' h => .error (h.fault (.unexpected "',' or ')'"))
  | succ more ih =>
    intro ts ts' h
    rw [argumentList, argumentList]
    apply (keeps ts ts' h).bind
    intro argument us us' hstep
    obtain ⟨l, a, a', us, us', rfl, rfl⟩ := hstep.exists_cons
    cases l with
    | symbol s =>
      cases s with
      | rightParen => exact .ok hstep.behind_symbol
      | comma =>
        apply (ih us us' hstep.behind_symbol).bind
        intro rest vs vs' hrest
        exact .ok hrest
      | _ => exact .error (hstep.fault (.unexpected "',' or ')'"))
    | _ => exact .error (hstep.fault (.unexpected "',' or ')'"))

theorem arguments_keepsStep : KeepsStep whole whole' (arguments expression) := by
  intro ts ts' h
  obtain ⟨l, a, a', us, us', rfl, rfl⟩ := h.exists_cons
  by_cases hclose : l = .symbol .rightParen
  · subst hclose
    exact .ok h.behind_symbol
  -- as many arguments may follow as there are tokens, and both lists have as many
  · rw [arguments_of_ne expression hclose, arguments_of_ne expression hclose, h.length_eq]
    exact argumentList_keepsStep keeps _ _ _ h

theorem primary_keepsStep : KeepsStep whole whole' (primary expression) := by
  intro ts ts' h
  obtain ⟨l, a, a', us, us', rfl, rfl⟩ := h.exists_cons
  cases l with
  | number digits =>
    rw [primary, primary]
    cases Decimal.read? digits with
    | none => exact .error (h.fault .invalidNumber)
    | some value => exact .ok (h.behind (by simp))
  | name text =>
    -- the token behind the name decides
    have hbehind := h.behind (by simp)
    obtain ⟨l, b, b', vs, vs', rfl, rfl⟩ := hbehind.exists_cons
    cases l with
    | symbol s =>
      cases s with
      | leftParen =>
        apply (arguments_keepsStep keeps vs vs' hbehind.behind_symbol).bind
        intro arguments ws ws' hrest
        exact .ok hrest
      | _ => exact .ok hbehind
    | _ => exact .ok hbehind
  | symbol s =>
    cases s with
    | leftParen =>
      apply (keeps us us' h.behind_symbol).bind
      intro inner vs vs' hinner
      obtain ⟨l, b, b', vs, vs', rfl, rfl⟩ := hinner.exists_cons
      cases l with
      | symbol s =>
        cases s with
        | rightParen => exact .ok hinner.behind_symbol
        | _ => exact .error (hinner.fault (.unexpected "')'"))
      | _ => exact .error (hinner.fault (.unexpected "')'"))
    | _ => exact .error (h.fault (.unexpected "expression"))
  | _ => exact .error (h.fault (.unexpected "expression"))

end

end Reader

/-! ### Factors and chains -/

namespace Readers

open Reader

/-- Readers that keep lists in step. -/
structure KeepStep (whole whole' : List Token) (readers : Readers) : Prop where
  factor : KeepsStep whole whole' readers.factor
  extend (least : Precedence) (left : Expr) : KeepsStep whole whole' (readers.extend least left)

variable {readers below : Readers}

theorem KeepStep.chain (h : readers.KeepStep whole whole') (least : Precedence) :
    KeepsStep whole whole' (readers.chain least) := by
  intro ts ts' hstep
  apply (h.factor ts ts' hstep).bind
  intro left us us' hleft
  exact h.extend least left us us' hleft

theorem ground_keepStep : ground.KeepStep whole whole' := by
  constructor
  · exact fun ts ts' h => .error (h.fault (.tooDeep maxNesting))
  · intro least left ts ts' h
    simp only [ground, h.chainOperator?_eq least]
    cases chainOperator? least ts' with
    | none => exact .ok h
    | some op => exact .error (h.fault (.tooDeep maxNesting))

/-- A factor that does not begin with a sign is a primary, and perhaps a power of it. -/
theorem above_factor_of_ne (hplus : l ≠ .symbol .plus) (hminus : l ≠ .symbol .minus) :
    below.above.factor (⟨l, a⟩ :: us) = (do
      let (base, ts) ← primary below.expression (⟨l, a⟩ :: us)
      match ts with
      | ⟨.symbol .caret, _⟩ :: ts => do
        let (exponent, ts) ← below.factor ts
        pure (.binary .power base exponent, ts)
      | _ => pure (base, ts)) := by
  simp only [above]
  split
  · next heq => exact absurd (congrArg Token.lexeme (List.cons.inj heq).1) hplus
  · next heq => exact absurd (congrArg Token.lexeme (List.cons.inj heq).1) hminus
  · rfl

/-- One level more. -/
theorem KeepStep.above (h : below.KeepStep whole whole') : below.above.KeepStep whole whole' := by
  constructor
  · intro ts ts' hstep
    obtain ⟨l, a, a', us, us', rfl, rfl⟩ := hstep.exists_cons
    -- signs are taken by the level below, and all else is a primary
    by_cases hplus : l = .symbol .plus
    · subst hplus
      exact h.factor us us' hstep.behind_symbol
    by_cases hminus : l = .symbol .minus
    · subst hminus
      apply (h.factor us us' hstep.behind_symbol).bind
      intro operand vs vs' hoperand
      exact .ok hoperand
    rw [above_factor_of_ne hplus hminus, above_factor_of_ne hplus hminus]
    apply (primary_keepsStep (h.chain .term) _ _ hstep).bind
    intro base vs vs' hbase
    obtain ⟨l, b, b', vs, vs', rfl, rfl⟩ := hbase.exists_cons
    cases l with
    | symbol s =>
      cases s with
      | caret =>
        apply (h.factor vs vs' hbase.behind_symbol).bind
        intro exponent ws ws' hexponent
        exact .ok hexponent
      | _ => exact .ok hbase
    | _ => exact .ok hbase
  · intro least left ts ts' hstep
    simp only [Readers.above, hstep.chainOperator?_eq least]
    cases hop : chainOperator? least ts' with
    | none => exact .ok hstep
    | some op =>
      -- an operator is not the end of input, so both lists go on behind it
      obtain ⟨l, a, a', us, us', rfl, rfl⟩ := hstep.exists_cons
      obtain ⟨⟨span, rest, hsymbol⟩, -⟩ := chainOperator?_eq_some.mp hop
      obtain rfl : l = .symbol op.symbol := congrArg Token.lexeme (List.cons.inj hsymbol).1
      apply (h.chain _ us us' hstep.behind_symbol).bind
      intro right vs vs' hright
      exact h.extend least _ vs vs' hright

/-- **Readers keep lists in step**, however many levels they have. -/
theorem keepStep_ofNat (n : Nat) : (ofNat n).KeepStep whole whole' := by
  induction n with
  | zero => exact ground_keepStep
  | succ n ih => exact ih.above

end Readers

end

/-! ### Texts -/

theorem endOfInput_mem_scan (s : String) : .endOfInput ∈ (scan s).map Token.lexeme := by
  rw [(lexemes_scan_dropLast s).1]
  exact List.mem_concat_self

/-- Texts of the same lexemes are both parsed, as the same tree, or have the same fault. -/
theorem parse_of_lexemes_eq {s s' : String}
    (h : (scan s).map Token.lexeme = (scan s').map Token.lexeme) :
    (∃ e, parse s = .ok e ∧ parse s' = .ok e) ∨
      ∃ e e', parse s = .error e ∧ parse s' = .error e' ∧ SameFault (scan s) (scan s') e e' := by
  have hread := (Readers.keepStep_ofNat maxNesting).chain .term _ _
    (InStep.refl h (endOfInput_mem_scan s))
  unfold parse Readers.expression
  generalize (Readers.ofNat maxNesting).chain .term (scan s) = r at hread ⊢
  generalize (Readers.ofNat maxNesting).chain .term (scan s') = r' at hread ⊢
  cases hread with
  | error hfault => exact .inr ⟨_, _, rfl, rfl, hfault⟩
  | @ok e ts ts' hrest =>
    obtain ⟨l, a, a', us, us', rfl, rfl⟩ := hrest.exists_cons
    by_cases hend : l = .endOfInput
    · subst hend
      exact .inl ⟨e, rfl, rfl⟩
    · have hnot (span : Span) (vs : List Token) :
          ¬ (Reader.front (⟨l, span⟩ :: vs)).isEnd = true := fun h => hend (eq_of_beq h)
      exact .inr ⟨_, _, if_neg (hnot a us), if_neg (hnot a' us'), hrest.fault .trailing⟩

/-- **Blanks between lexemes do not matter.**  Both texts have the same lexemes, and so tokens of
the same sorts and texts.  Either both are parsed as the same tree, or both fail with the same
complaint about the token of one number, which they describe in the same words. -/
theorem parse_respaced {s s' : String} (h : Respaced s s') :
    (scan s').map Token.lexeme = (scan s).map Token.lexeme ∧
      ((∃ e, parse s = .ok e ∧ parse s' = .ok e) ∨
        ∃ (complaint : Complaint) (i : Nat) (t t' : Token),
          (scan s)[i]? = some t ∧ (scan s')[i]? = some t' ∧ t.describe = t'.describe ∧
            parse s = .error (complaint.about t) ∧ parse s' = .error (complaint.about t')) := by
  have hlexemes := lexemes_scan_respaced h
  refine ⟨hlexemes, ?_⟩
  rcases parse_of_lexemes_eq hlexemes.symm with hok | ⟨e, e', herror, herror', hfault⟩
  · exact .inl hok
  · obtain ⟨complaint, i, t, t', ht, ht', hlexeme, rfl, rfl⟩ := hfault
    exact .inr ⟨complaint, i, t, t', ht, ht', congrArg Lexeme.describe hlexeme, herror, herror'⟩

/-- A text that is not parsed, and the same lexemes with blanks of several kinds around them. -/
theorem respaced_one_plus_times : Respaced "1+*2" "\u30001 + *\t2" := by
  have hlexemes : (scan "1+*2").dropLast.map Token.lexeme =
      [.number "1", .symbol .plus, .symbol .star, .number "2"] := by decide +kernel
  have htext : "\u30001 + *\t2".toList = ['\u3000'] ++ (['1'] ++ [' '] ++
      (['+'] ++ [' '] ++ (['*'] ++ ['\t'] ++ (['2'] ++ [] ++ [])))) := rfl
  have hblank (c : Char) (h : Text.isBlank c = true) : ∀ x ∈ [c], Text.isBlank x = true :=
    List.forall_mem_singleton.mpr h
  refine ⟨['\u3000'], _, htext, hblank _ (by decide), ?_⟩
  rw [hlexemes]
  exact .cons (hblank _ (by decide)) (by simp) (.cons (hblank _ (by decide)) (by simp)
    (.cons (hblank _ (by decide)) (by simp) (.cons (by simp) (by simp) .nil)))

/-- The asterisk is the third token of both texts, and both fail there. -/
theorem parse_respaced_one_plus_times :
    Respaced "1+*2" "\u30001 + *\t2" ∧
      parse "1+*2" = .error (.unexpected "expression" "'*'" ⟨2, 3⟩) ∧
      parse "\u30001 + *\t2" = .error (.unexpected "expression" "'*'" ⟨7, 8⟩) := by
  have hscan : scan "1+*2" = [⟨.number "1", ⟨0, 1⟩⟩, ⟨.symbol .plus, ⟨1, 2⟩⟩,
      ⟨.symbol .star, ⟨2, 3⟩⟩, ⟨.number "2", ⟨3, 4⟩⟩, .atEnd 4] := by decide +kernel
  have hscan' : scan "\u30001 + *\t2" = [⟨.number "1", ⟨3, 4⟩⟩, ⟨.symbol .plus, ⟨5, 6⟩⟩,
      ⟨.symbol .star, ⟨7, 8⟩⟩, ⟨.number "2", ⟨9, 10⟩⟩, .atEnd 10] := by decide +kernel
  have hparse : parse "1+*2" = .error (.unexpected "expression" "'*'" ⟨2, 3⟩) := by
    rw [parse, hscan]
    rfl
  refine ⟨respaced_one_plus_times, hparse, ?_⟩
  obtain ⟨-, ⟨e, hok, -⟩ | ⟨complaint, i, t, t', ht, ht', -, herror, herror'⟩⟩ :=
    parse_respaced respaced_one_plus_times
  · rw [hparse] at hok
    cases hok
  · have hfault := Except.error.inj (hparse.symm.trans herror)
    have hspan : t.span = ⟨2, 3⟩ := by rw [← complaint.span_about t, ← hfault]; rfl
    rw [hscan] at ht
    rw [hscan'] at ht'
    -- no other token of the first text stands there
    obtain rfl : i = 2 := by
      rcases i with _ | _ | _ | _ | _ | i
      · cases ht
        cases hspan
      · cases ht
        cases hspan
      · rfl
      · cases ht
        cases hspan
      · cases ht
        cases hspan
      · cases ht
    cases ht
    cases ht'
    cases complaint with
    | unexpected expected =>
      cases hfault
      exact herror'
    | _ => cases hfault

end Abacus
