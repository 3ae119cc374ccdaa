import Abacus.Proofs.Grammar.Continuation
import Abacus.Proofs.Grammar.Levels
import Abacus.Proofs.Grammar.Lockstep

/-!
# The leftmost fault

A reader takes tokens off the front one by one, and looks at one more.  So what it decides hangs on
those tokens alone, whatever may follow them.  If it complains of a token that was not expected,
then all it has taken may begin an expression, but not together with that token: otherwise it would
complain of it in the expression too, and expressions are read.

## Main definitions

* `Verdict`: what a reader decides
* `Reader.Settles`: a reader decides something, and has good reason to complain

## Main results

* `Readers.settle_ofNat`: readers settle on something behind all lexemes where an expression may
  stand
* `Grammar.not_viable_of_decided`: what is decided of a token that is not read is final
* `Grammar.leftmost_of_parse`: the token that is complained of is the first that can not stand
-/

namespace Abacus

/-- **What a reader decides**: on a value, or to complain of the token it has come to. -/
inductive Verdict (α : Type) where
  | value (a : α)
  | complaint (c : Complaint)

/-- The result of a verdict, with so many tokens left. -/
def Verdict.result {α : Type} : Verdict α → List Token → Except ParseError (α × List Token)
  | value a, rest => .ok (a, rest)
  | complaint c, rest => .error (c.about (Reader.front rest))

open Grammar

namespace Reader

section

variable {α β : Type} {before : List Lexeme} {reader reader' : Reader α} {ts us : List Token}
  {l : Lexeme} {a : Span}

/-- **The reader settles on something** behind some lexemes.  What it decides hangs on the tokens it
takes and on the one behind them; and if it complains of that one, those before it are viable. -/
def Settles (before : List Lexeme) (reader : Reader α) (ts : List Token) : Prop :=
  ∃ (taken rest : List Token) (verdict : Verdict α), ts = taken ++ rest ∧
    (∀ rest', rest'.head? = rest.head? → reader (taken ++ rest') = verdict.result rest') ∧
    ∀ c, verdict = .complaint c → Viable (before ++ taken.map Token.lexeme)

theorem front_eq_of_head? {ts' : List Token} (h : ts'.head? = ts.head?) : front ts' = front ts := by
  rw [front, front, List.headD_eq_head?_getD, List.headD_eq_head?_getD, h]

theorem chainOperator?_congr {ts' : List Token} (least : Precedence) (h : ts'.head? = ts.head?) :
    chainOperator? least ts' = chainOperator? least ts := by
  rw [chainOperator?, chainOperator?, front_eq_of_head? h]

/-- What is decided before any token is taken. -/
theorem settles_at_once (hviable : Viable before) (verdict : Verdict α)
    (h : ∀ ts', ts'.head? = ts.head? → reader ts' = verdict.result ts') :
    Settles before reader ts := by
  refine ⟨[], ts, verdict, rfl, h, fun _ _ => ?_⟩
  rwa [List.map_nil, List.append_nil]

theorem settles_at_once_nil (hviable : Viable before) (verdict : Verdict α)
    (h : reader [] = verdict.result []) : Settles before reader [] := by
  refine settles_at_once hviable verdict fun ts' hts' => ?_
  rw [List.head?_eq_none_iff.mp hts', h]

theorem settles_at_once_cons (hviable : Viable before) (verdict : Verdict α)
    (h : ∀ us', reader (⟨l, a⟩ :: us') = verdict.result (⟨l, a⟩ :: us')) :
    Settles before reader (⟨l, a⟩ :: us) := by
  refine settles_at_once hviable verdict fun ts' hts' => ?_
  obtain ⟨us', rfl⟩ := List.head?_eq_some_iff.mp hts'
  exact h us'

namespace Settles

/-- A value that is made without taking any token. -/
theorem done {value : α} (h : ∀ ts, reader ts = .ok (value, ts)) : Settles before reader ts :=
  ⟨[], ts, .value value, rfl, fun rest' _ => h rest', nofun⟩

/-- Readers that are the same as long as the same token stands in front. -/
theorem congr (h : Settles before reader' ts)
    (hreader : ∀ ts', ts'.head? = ts.head? → reader ts' = reader' ts') :
    Settles before reader ts := by
  obtain ⟨taken, rest, verdict, rfl, hdecides, hviable⟩ := h
  refine ⟨taken, rest, verdict, rfl, fun rest' hrest' => ?_, hviable⟩
  rw [hreader, hdecides rest' hrest']
  rw [List.head?_append, List.head?_append, hrest']

/-- The token in front is taken, and another reader goes on behind it. -/
theorem cons (h : Settles (before ++ [l]) reader' us)
    (hreader : ∀ us', reader (⟨l, a⟩ :: us') = reader' us') :
    Settles before reader (⟨l, a⟩ :: us) := by
  obtain ⟨taken, rest, verdict, rfl, hdecides, hviable⟩ := h
  refine ⟨⟨l, a⟩ :: taken, rest, verdict, rfl, fun rest' hrest' => ?_, fun c hverdict => ?_⟩
  · exact (hreader _).trans (hdecides rest' hrest')
  · have h := hviable c hverdict
    rwa [List.append_assoc] at h

/-- The token in front is the last that is taken. -/
theorem last (value : α) (h : ∀ us', reader (⟨l, a⟩ :: us') = .ok (value, us')) :
    Settles before reader (⟨l, a⟩ :: us) := cons (done fun _ => rfl) h

/-- **One reader after another**, the second one behind what the first one has taken. -/
theorem bind {next : α × List Token → Except ParseError (β × List Token)}
    (h : Settles before reader ts)
    (hnext : ∀ value taken rest, ts = taken ++ rest → reader ts = .ok (value, rest) →
      Settles (before ++ taken.map Token.lexeme) (fun us => next (value, us)) rest) :
    Settles before (fun ts => reader ts >>= next) ts := by
  obtain ⟨taken, rest, verdict, rfl, hdecides, hviable⟩ := h
  cases verdict with
  | complaint c =>
    refine ⟨taken, rest, .complaint c, rfl, fun rest' hrest' => ?_, fun _ _ => hviable c rfl⟩
    dsimp only
    rw [hdecides rest' hrest']
    rfl
  | value value =>
    obtain ⟨taken', rest, verdict, rfl, hdecides', hviable'⟩ :=
      hnext value taken rest rfl (hdecides rest rfl)
    refine ⟨taken ++ taken', rest, verdict, (List.append_assoc ..).symm,
      fun rest' hrest' => ?_, fun c hverdict => ?_⟩
    -- the token behind the first part is in the second one, or else the one behind both
    · have hhead : (taken' ++ rest').head? = (taken' ++ rest).head? := by
        rw [List.head?_append, List.head?_append, hrest']
      dsimp only
      rw [List.append_assoc, hdecides _ hhead]
      exact hdecides' rest' hrest'
    · have h := hviable' c hverdict
      rwa [List.append_assoc, ← List.map_append] at h

end Settles

end

/-! ### Arguments and names -/

/-- An argument, and what a reader makes of the arguments after it if there are any. -/
def argumentThen (expression : Reader Expr) (more : Reader (List Expr)) : Reader (List Expr) :=
  fun ts => do
    let (argument, ts) ← expression ts
    match ts with
    | ⟨.symbol .rightParen, _⟩ :: ts => pure ([argument], ts)
    | ⟨.symbol .comma, _⟩ :: ts => do
      let (rest, ts) ← more ts
      pure (argument :: rest, ts)
    | _ => unexpected "',' or ')'" ts

/-- Arguments up to the closing parenthesis, at least one and as many as there are. -/
def someArguments (expression : Reader Expr) : Reader (List Expr) :=
  fun ts => argumentList expression (ts.length + 1) ts

/-- What stands behind a name: the arguments of a call, or anything else. -/
def afterName (expression : Reader Expr) (name : String) : Reader Expr
  | ⟨.symbol .leftParen, _⟩ :: ts => do
    let (arguments, ts) ← arguments expression ts
    pure (.call name arguments, ts)
  | ts => pure (.var name, ts)

section

variable {n : Nat} {expression : Reader Expr} {before : List Lexeme} {ts : List Token}

theorem primary_name (name : String) (a : Span) (us : List Token) :
    primary expression (⟨.name name, a⟩ :: us) = afterName expression name us := by
  unfold primary afterName
  split <;> simp_all

theorem argumentList_succ (more : Nat) :
    argumentList expression (more + 1) =
      argumentThen expression (argumentList expression more) := by
  funext ts
  rw [argumentList]
  rfl

/-- The tokens that are taken are those of the lexemes that are read. -/
theorem map_lexeme_of_spells {taken rest : List Token} {ls : List Lexeme}
    (h : Spells (taken ++ rest) ls rest) : taken.map Token.lexeme = ls := by
  obtain ⟨front, happend, hfront⟩ := h
  rw [List.append_cancel_right happend, hfront]

/-- Behind an argument and a comma there are fewer tokens. -/
theorem argumentThen_congr (sound : ExpressionSound n expression) {more more' : Reader (List Expr)}
    (h : ∀ us : List Token, us.length < ts.length → more us = more' us) :
    argumentThen expression more ts = argumentThen expression more' ts := by
  rw [argumentThen, argumentThen]
  cases hread : expression ts with
  | error e => rfl
  | ok read =>
    obtain ⟨argument, rest⟩ := read
    obtain ⟨d, ⟨taken, rfl, -⟩, -⟩ := sound hread
    simp only [bind, Except.bind]
    split
    · rfl
    · next us =>
      rw [h us (by rw [List.length_append, List.length_cons]; omega)]
    · rfl

/-- The bound on the number of arguments does not matter if it is more than that of the tokens. -/
theorem argumentList_congr (sound : ExpressionSound n expression) {more more' : Nat}
    (h : ts.length < more) (h' : ts.length < more') :
    argumentList expression more ts = argumentList expression more' ts := by
  induction more generalizing more' ts with
  | zero => cases h
  | succ more ih =>
    obtain _ | more' := more'
    · cases h'
    rw [argumentList_succ, argumentList_succ]
    exact argumentThen_congr sound fun us hus => ih (by omega) (by omega)

theorem someArguments_eq (sound : ExpressionSound n expression) (ts : List Token) :
    someArguments expression ts = argumentThen expression (someArguments expression) ts := by
  rw [someArguments, argumentList_succ]
  exact argumentThen_congr sound fun us hus => argumentList_congr sound hus (Nat.lt_succ_self _)

variable (sound : ExpressionSound n expression)
  (settles : ∀ {before}, Awaits before → ∀ ts, Settles before expression ts)

include sound settles

theorem someArguments_settles (h : AwaitsArguments before) (ts : List Token) :
    Settles before (someArguments expression) ts := by
  -- Induction on the number of tokens, of which each argument leaves fewer to the next.
  induction hlength : ts.length using Nat.strong_induction_on generalizing before ts with
  | _ _ ih =>
    subst hlength
    refine Settles.congr ?_ fun ts' _ => someArguments_eq sound ts'
    apply (settles h.awaits ts).bind
    rintro argument taken rest rfl hread
    obtain ⟨d, hspells, -⟩ := sound hread
    rw [map_lexeme_of_spells hspells]
    have hviable : Viable (before ++ d.lexemes) := h.awaits d
    rcases rest with _ | ⟨⟨l, a⟩, us⟩
    · exact settles_at_once_nil hviable (.complaint (.unexpected _)) rfl
    cases l with
    | symbol s =>
      cases s with
      | rightParen => exact .last _ fun _ => rfl
      | comma =>
        refine .cons ?_ fun _ => rfl
        rw [List.append_assoc]
        have hfewer : us.length < (taken ++ ⟨.symbol .comma, a⟩ :: us).length := by
          rw [List.length_append, List.length_cons]
          omega
        apply (ih us.length hfewer (h.comma d) us rfl).bind
        intro others taken' rest' _ _
        exact .done fun _ => rfl
      | _ => exact settles_at_once_cons hviable (.complaint (.unexpected _)) fun _ => rfl
    | _ => exact settles_at_once_cons hviable (.complaint (.unexpected _)) fun _ => rfl

theorem arguments_settles (h : AwaitsArguments before) (ts : List Token) :
    Settles before (arguments expression) ts := by
  have hsome := someArguments_settles sound settles h
  rcases ts with _ | ⟨⟨l, a⟩, us⟩
  · exact (hsome []).congr fun ts' hts' => by rw [List.head?_eq_none_iff.mp hts']; rfl
  by_cases hclose : l = .symbol .rightParen
  · subst hclose
    exact .last _ fun _ => rfl
  · refine (hsome _).congr fun ts' hts' => ?_
    obtain ⟨us', rfl⟩ := List.head?_eq_some_iff.mp hts'
    exact arguments_of_ne expression hclose

/-! ### Primaries -/

theorem afterName_settles (h : Awaits before) (name : String) (ts : List Token) :
    Settles (before ++ [.name name]) (afterName expression name) ts := by
  have hviable : Viable (before ++ [.name name]) := h.primary (.name name) List.prefix_rfl
  rcases ts with _ | ⟨⟨l, a⟩, us⟩
  · exact settles_at_once_nil hviable (.value _) rfl
  cases l with
  | symbol s =>
    cases s with
    | leftParen =>
      refine .cons ?_ fun _ => rfl
      rw [List.append_assoc]
      apply (arguments_settles sound settles (h.call name) us).bind
      intro arguments taken rest _ _
      exact .done fun _ => rfl
    | _ => exact settles_at_once_cons hviable (.value _) fun _ => rfl
  | _ => exact settles_at_once_cons hviable (.value _) fun _ => rfl

theorem primary_settles (h : Awaits before) (ts : List Token) :
    Settles before (primary expression) ts := by
  rcases ts with _ | ⟨⟨l, a⟩, us⟩
  · exact settles_at_once_nil h.viable (.complaint (.unexpected _)) rfl
  cases l with
  | number digits =>
    cases hvalue : Decimal.read? digits with
    | none =>
      refine settles_at_once_cons h.viable (.complaint .invalidNumber) fun us' => ?_
      rw [primary, hvalue]
      rfl
    | some value =>
      refine .last (.num value) fun us' => ?_
      rw [primary, hvalue]
      rfl
  | name text =>
    exact .cons (afterName_settles sound settles h text us) fun us' => primary_name text a us'
  | symbol s =>
    cases s with
    | leftParen =>
      refine .cons ?_ fun _ => rfl
      apply (settles h.group us).bind
      rintro inner taken rest rfl hread
      obtain ⟨d, hspells, -⟩ := sound hread
      rw [map_lexeme_of_spells hspells]
      have hviable : Viable (before ++ [.symbol .leftParen] ++ d.lexemes) := h.group d
      rcases rest with _ | ⟨⟨l, b⟩, us⟩
      · exact settles_at_once_nil hviable (.complaint (.unexpected _)) rfl
      cases l with
      | symbol s =>
        cases s with
        | rightParen => exact .last _ fun _ => rfl
        | _ => exact settles_at_once_cons hviable (.complaint (.unexpected _)) fun _ => rfl
      | _ => exact settles_at_once_cons hviable (.complaint (.unexpected _)) fun _ => rfl
    | _ => exact settles_at_once_cons h.viable (.complaint (.unexpected _)) fun _ => rfl
  | _ => exact settles_at_once_cons h.viable (.complaint (.unexpected _)) fun _ => rfl

end

end Reader

/-! ### Factors and chains -/

/-- A factor is an expression. -/
theorem Grammar.Factor.exists_expression (d : Factor) :
    ∃ d' : Expression, d'.lexemes = d.lexemes := by
  refine ⟨.chain (.chain d .nil) .nil, ?_⟩
  rw [Expression.lexemes, Term.lexemes, ProductTail.lexemes, SumTail.lexemes, List.append_nil,
    List.append_nil]

/-- What is read behind an operator of a chain is an expression by itself. -/
theorem Grammar.ReadersSound.operand {n : Nat} {readers : Readers}
    (sound : ReadersSound n readers) {op : BinaryOp} (hop : op.precedence ≠ .exponent)
    {ts rest : List Token} {e : Expr}
    (h : readers.chain op.precedence.next ts = .ok (e, rest)) :
    ∃ d : Expression, Spells ts d.lexemes rest := by
  cases hprecedence : op.precedence with
  | none => cases op <;> cases hprecedence
  | exponent => exact absurd hprecedence hop
  | term =>
    rw [hprecedence] at h
    obtain ⟨-, d, hspells, -⟩ := sound.term h
    refine ⟨.chain d .nil, ?_⟩
    rwa [Expression.lexemes, SumTail.lexemes, List.append_nil]
  | factor =>
    rw [hprecedence] at h
    obtain ⟨d, hspells, -⟩ := sound.factor_of_chain h
    obtain ⟨d', hd'⟩ := d.exists_expression
    exact ⟨d', hd'.symm ▸ hspells⟩

namespace Readers

open Reader

/-- Readers that settle on something behind all lexemes where an expression may stand, and, to go on
with a chain, behind an expression that stands there. -/
structure Settle (readers : Readers) : Prop where
  factor {before : List Lexeme} : Awaits before → ∀ ts, Settles before readers.factor ts
  extend {before : List Lexeme} : Awaits before → ∀ (d : Expression) least left ts,
    Settles (before ++ d.lexemes) (readers.extend least left) ts

variable {n : Nat} {readers below : Readers}

theorem Settle.chain (h : readers.Settle) (sound : ReadersSound n readers) {before : List Lexeme}
    (hbefore : Awaits before) (least : Precedence) (ts : List Token) :
    Settles before (readers.chain least) ts := by
  apply (h.factor hbefore ts).bind
  rintro left taken rest rfl hread
  obtain ⟨d, hspells, -⟩ := sound.factor hread
  obtain ⟨d', hd'⟩ := d.exists_expression
  rw [map_lexeme_of_spells hspells, ← hd']
  exact h.extend hbefore d' least left rest

theorem settle_ground : ground.Settle := by
  constructor
  · intro before hbefore ts
    exact settles_at_once hbefore.viable (.complaint (.tooDeep maxNesting)) fun _ _ => rfl
  · intro before hbefore d least left ts
    cases hop : chainOperator? least ts with
    | none =>
      refine settles_at_once (hbefore d) (.value left) fun ts' hts' => ?_
      simp only [ground, chainOperator?_congr least hts', hop]
      rfl
    | some op =>
      refine settles_at_once (hbefore d) (.complaint (.tooDeep maxNesting)) fun ts' hts' => ?_
      simp only [ground, chainOperator?_congr least hts', hop]
      rfl

/-- A primary, and perhaps a power of it. -/
def powers (below : Readers) : Reader Expr := fun ts => do
  let (base, ts) ← primary below.expression ts
  match ts with
  | ⟨.symbol .caret, _⟩ :: ts => do
    let (exponent, ts) ← below.factor ts
    pure (.binary .power base exponent, ts)
  | _ => pure (base, ts)

theorem Settle.powers (h : below.Settle) (sound : ReadersSound n below) {before : List Lexeme}
    (hbefore : Awaits before) (ts : List Token) : Settles before below.powers ts := by
  apply (primary_settles sound.expression (fun hb => h.chain sound hb .term) hbefore ts).bind
  rintro base taken rest rfl hread
  obtain ⟨d, hspells, -⟩ := primary_sound sound.expression hread
  rw [map_lexeme_of_spells hspells]
  have hviable : Viable (before ++ d.lexemes) := hbefore.primary d List.prefix_rfl
  rcases rest with _ | ⟨⟨l, a⟩, us⟩
  · exact settles_at_once_nil hviable (.value _) rfl
  cases l with
  | symbol s =>
    cases s with
    | caret =>
      refine .cons ?_ fun _ => rfl
      rw [List.append_assoc]
      apply (h.factor (hbefore.power d) us).bind
      intro exponent taken rest _ _
      exact .done fun _ => rfl
    | _ => exact settles_at_once_cons hviable (.value _) fun _ => rfl
  | _ => exact settles_at_once_cons hviable (.value _) fun _ => rfl

/-- One level more. -/
theorem Settle.above (h : below.Settle) (sound : ReadersSound n below) : below.above.Settle := by
  constructor
  · intro before hbefore ts
    rcases ts with _ | ⟨⟨l, a⟩, us⟩
    · exact settles_at_once_nil hbefore.viable (.complaint (.unexpected _)) rfl
    -- signs are taken by the level below, and all else is a primary
    by_cases hplus : l = .symbol .plus
    · subst hplus
      exact .cons (h.factor hbefore.plus us) fun _ => rfl
    by_cases hminus : l = .symbol .minus
    · subst hminus
      refine .cons ?_ fun _ => rfl
      apply (h.factor hbefore.minus us).bind
      intro operand taken rest _ _
      exact .done fun _ => rfl
    refine (h.powers sound hbefore _).congr fun ts' hts' => ?_
    obtain ⟨us', rfl⟩ := List.head?_eq_some_iff.mp hts'
    exact above_factor_of_ne hplus hminus
  · intro before hbefore d least left ts
    cases hop : chainOperator? least ts with
    | none =>
      refine settles_at_once (hbefore d) (.value left) fun ts' hts' => ?_
      simp only [Readers.above, chainOperator?_congr least hts', hop]
      rfl
    | some op =>
      obtain ⟨⟨span, us, rfl⟩, -, hrank⟩ := chainOperator?_eq_some.mp hop
      have hpower : op.precedence ≠ .exponent := fun h => by rw [h] at hrank; omega
      have hbehind : Awaits (before ++ d.lexemes ++ [.symbol op.symbol]) := by
        rw [List.append_assoc]
        exact hbefore.operator d hpower
      have hoperand : Settles (before ++ d.lexemes ++ [.symbol op.symbol]) (fun us => do
          let (right, us) ← below.chain op.precedence.next us
          below.extend least (.binary op left right) us) us := by
        apply (h.chain sound hbehind _ us).bind
        rintro right taken rest rfl hread
        obtain ⟨d', hspells⟩ := sound.operand hpower hread
        obtain ⟨whole, hwhole⟩ := d.exists_join d' hpower
        rw [map_lexeme_of_spells hspells]
        have hextend := h.extend hbefore whole least (.binary op left right) rest
        rw [hwhole] at hextend
        simpa only [List.append_assoc, List.singleton_append] using hextend
      refine hoperand.cons fun us' => ?_
      have hop' : chainOperator? least (⟨.symbol op.symbol, span⟩ :: us') = some op := hop
      simp only [Readers.above, hop']
      rfl

/-- **Readers settle on something**, however many levels they have. -/
theorem settle_ofNat (n : Nat) : (ofNat n).Settle := by
  induction n with
  | zero => exact settle_ground
  | succ n ih => exact ih.above (readersSound n)

end Readers

namespace Grammar

/-! ### The token that is complained of -/

/-- **What is decided of a token that is not read is final**: no expression begins with the tokens
before it and with it. -/
theorem not_viable_of_decided {n : Nat} {taken : List Token} {t : Token} {verdict : Verdict Expr}
    (hdecides : ∀ rest, rest.head? = some t →
      (Readers.ofNat n).expression (taken ++ rest) = verdict.result rest)
    (hlevels : ∀ limit, verdict ≠ .complaint (.tooDeep limit))
    (hnumbers : NumbersRead ((taken ++ [t]).map Token.lexeme)) :
    ¬ Viable ((taken ++ [t]).map Token.lexeme) := by
  intro hviable
  obtain ⟨d, hread, ls, hlexemes⟩ := hviable.exists_numbersRead hnumbers
  -- The tokens of the expression, which has the lexemes `ls` behind the token.
  let rest : List Token := t :: (ls.map (⟨·, .point 0⟩) ++ [.atEnd 0])
  have hspells : Spells (taken ++ rest) d.lexemes [.atEnd 0] := by
    refine ⟨taken ++ [t] ++ ls.map (⟨·, .point 0⟩), ?_, ?_⟩
    · simp only [rest, List.append_assoc, List.cons_append, List.nil_append]
    · rw [List.map_append, List.map_map, ← hlexemes]
      exact congrArg _ (List.map_id ls)
  have hcomplete := d.complete (Nat.le_max_right n d.levels) hread hspells
    (endsExpression_of_isEnd rfl)
  have hdeep := Readers.orTooDeep_of_le (Nat.le_max_left n d.levels) (taken ++ rest)
  rw [hcomplete, hdecides rest rfl] at hdeep
  rcases hdeep with hok | ⟨span, hspan⟩
  · cases verdict with
    | complaint c => cases hok
    -- an expression is read, but only if the token is the end of input
    | value e =>
      obtain ⟨-, hrest⟩ := Prod.mk.inj (Except.ok.inj hok)
      have ht : t = .atEnd 0 := (List.cons.inj hrest).1
      refine d.endOfInput_not_mem ?_
      rw [← hlexemes, ht]
      simp [Token.atEnd]
  · cases verdict with
    | value e => cases hspan
    | complaint c =>
      cases c with
      | tooDeep limit => exact hlevels limit rfl
      | unexpected _ | trailing | invalidNumber => cases hspan

theorem numbersRead_of_subset {s : String} {ts : List Token} (h : ts ⊆ scan s) :
    NumbersRead (ts.map Token.lexeme) := by
  intro digits hmem
  obtain ⟨t, ht, hlexeme⟩ := List.mem_map.mp hmem
  exact exists_read?_of_mem_scan (h ht) hlexeme

/-- The token that a text is not parsed for, with the tokens before it. -/
theorem exists_decided_of_parse {s : String} {e : ParseError} (h : parse s = .error e) :
    ∃ (taken : List Token) (t : Token) (rest : List Token) (verdict : Verdict Expr) (c : Complaint),
      scan s = taken ++ t :: rest ∧ e = c.about t ∧ Viable (taken.map Token.lexeme) ∧
      (verdict = .complaint c ∨ c = .trailing ∧ ∃ value, verdict = .value value) ∧
      ∀ rest', rest'.head? = some t →
        (Readers.ofNat maxNesting).expression (taken ++ rest') = verdict.result rest' := by
  have sound := readersSound maxNesting
  obtain ⟨taken, rest, verdict, hscan, hdecides, hviable⟩ :=
    (Readers.settle_ofNat maxNesting).chain sound awaits_nil .term (scan s)
  have hread : (Readers.ofNat maxNesting).expression (scan s) = verdict.result rest := by
    rw [hscan]
    exact hdecides rest rfl
  -- the tokens that are taken are viable in either case
  have htaken : Viable (taken.map Token.lexeme) := by
    cases verdict with
    | complaint c => exact hviable c rfl
    | value value =>
      obtain ⟨d, hspells, -⟩ := sound.expression hread
      rw [hscan] at hspells
      exact ⟨d, (Reader.map_lexeme_of_spells hspells).symm ▸ List.prefix_rfl⟩
  -- so that the end of input, at the latest, is not among them
  obtain ⟨t, us, rfl⟩ : ∃ t us, rest = t :: us := by
    refine List.exists_cons_of_ne_nil fun hrest => htaken.endOfInput_not_mem ?_
    rw [hrest, List.append_nil] at hscan
    exact hscan ▸ endOfInput_mem_scan s
  rw [parse, hread] at h
  cases verdict with
  | complaint c =>
    exact ⟨taken, t, us, .complaint c, c, hscan, (Except.error.inj h).symm, htaken, .inl rfl,
      hdecides⟩
  | value value =>
    change (if t.isEnd = true then Except.ok value else _) = Except.error e at h
    split at h
    · cases h
    · exact ⟨taken, t, us, .value value, .trailing, hscan, (Except.error.inj h).symm, htaken,
        .inr ⟨rfl, value, rfl⟩, hdecides⟩

/-- **The leftmost fault.**  A text that is not parsed because of a token that was not expected, or
that follows a whole expression, is described and located by the first token that can not stand
where it stands: the lexemes before it begin some expression, those up to it begin none.  So the
text is not derived, however many levels that would take. -/
theorem leftmost_of_parse {s found : String} {span : Span}
    (h : (∃ expected, parse s = .error (.unexpected expected found span)) ∨
      parse s = .error (.trailing found span)) :
    ∃ (i : Nat) (t : Token), (scan s)[i]? = some t ∧ t.describe = found ∧ t.span = span ∧
      Viable (((scan s).take i).map Token.lexeme) ∧
      ¬ Viable (((scan s).take (i + 1)).map Token.lexeme) ∧
      ¬ ∃ d, Derives s d := by
  obtain ⟨e, herror, hlevels, habout⟩ : ∃ e, parse s = .error e ∧
      (∀ limit span', e ≠ .tooDeep limit span') ∧
      ∀ (c : Complaint) t, e = c.about t → t.describe = found ∧ t.span = span := by
    rcases h with ⟨expected, h⟩ | h
    · refine ⟨_, h, nofun, fun c t heq => ?_⟩
      cases c <;> cases heq
      exact ⟨rfl, rfl⟩
    · refine ⟨_, h, nofun, fun c t heq => ?_⟩
      cases c <;> cases heq
      exact ⟨rfl, rfl⟩
  obtain ⟨taken, t, rest, verdict, c, hscan, rfl, htaken, hverdict, hdecides⟩ :=
    exists_decided_of_parse herror
  obtain ⟨hfound, hspan⟩ := habout c t rfl
  have hmem : taken ++ [t] ⊆ scan s := by
    rw [hscan]
    simp
  have hfront : (scan s).take taken.length = taken := by rw [hscan, List.take_left]
  have hupTo : (scan s).take (taken.length + 1) = taken ++ [t] := by
    rw [hscan, List.take_append, List.take_of_length_le (Nat.le_succ _), Nat.add_sub_cancel_left]
    rfl
  refine ⟨taken.length, t, ?_, hfound, hspan, by rwa [hfront], ?_, ?_⟩
  · rw [hscan, List.getElem?_append_right (Nat.le_refl _), Nat.sub_self]
    rfl
  · rw [hupTo]
    refine not_viable_of_decided hdecides (fun limit hlimit => ?_) (numbersRead_of_subset hmem)
    rcases hverdict with hcomplaint | ⟨-, value, hvalue⟩
    · rw [hlimit] at hcomplaint
      cases hcomplaint
      exact hlevels limit t.span rfl
    · rw [hlimit] at hvalue
      cases hvalue
  · rintro ⟨d, hd⟩
    rcases parse_or_tooDeep_of_derives hd with hok | ⟨span', hdeep⟩
    · rw [herror] at hok
      cases hok
    · rw [herror] at hdeep
      exact hlevels _ _ (Except.error.inj hdeep)

/-- Two arguments without a comma: behind the first one a comma or a parenthesis could stand, but
the second one can not. -/
theorem leftmost_of_parse_arguments :
    parse "2 * f(1 3)" = .error (.unexpected "',' or ')'" "number '3'" ⟨8, 9⟩) ∧
      Viable (((scan "2 * f(1 3)").take 5).map Token.lexeme) ∧
      ¬ Viable (((scan "2 * f(1 3)").take 6).map Token.lexeme) := by
  have hscan : scan "2 * f(1 3)" = [⟨.number "2", ⟨0, 1⟩⟩, ⟨.symbol .star, ⟨2, 3⟩⟩,
      ⟨.name "f", ⟨4, 5⟩⟩, ⟨.symbol .leftParen, ⟨5, 6⟩⟩, ⟨.number "1", ⟨6, 7⟩⟩,
      ⟨.number "3", ⟨8, 9⟩⟩, ⟨.symbol .rightParen, ⟨9, 10⟩⟩, .atEnd 10] := by decide +kernel
  have hparse : parse "2 * f(1 3)" =
      .error (.unexpected "',' or ')'" "number '3'" ⟨8, 9⟩) := by
    rw [parse, hscan]
    rfl
  obtain ⟨i, t, ht, -, hspan, hviable, hnot, -⟩ := leftmost_of_parse (.inl ⟨_, hparse⟩)
  -- no other token of the text stands there
  obtain rfl : i = 5 := by
    rw [hscan] at ht
    rcases i with _ | _ | _ | _ | _ | _ | _ | _ | i <;> first | rfl | cases ht <;> cases hspan
  exact ⟨hparse, hviable, hnot⟩

end Grammar

end Abacus
