import Abacus.Decimal.Numeral
import Abacus.Expr
import Abacus.Token.Scan

/-!
# Reading expressions

The grammar, over tokens:

    expression := term (('+' | '-') term)*
    term       := factor (('*' | '/' | '%') factor)*
    factor     := '+' factor | '-' factor | primary ('^' factor)?
    primary    := NUMBER | NAME | NAME '(' arguments ')' | '(' expression ')'
    arguments  := (expression (',' expression)*)?

Sums and products are chains and group to the left.  Powers are read inside a factor, so they
group to the right and bind tighter than a sign before them.  A plus sign leaves no trace.

An expression may nest at most `maxNesting` levels.  A factor takes one level while it is read,
and so does each operator of a chain from where it stands to the end of the chain.  The readers
for `n + 1` levels are built from those for `n` levels, and this is what the recursion is on.

## Main definitions

* `Reader`: reads something at the front of a list of tokens;
* `Readers`, `Readers.ofNat`: the readers that have a number of levels left;
* `parse`: an expression from a text.
-/

namespace Abacus

/-- Levels an expression may nest. -/
def maxNesting : Nat := 256

/-- Reads something at the front of a list of tokens; with it comes what is left of the list. -/
abbrev Reader (α : Type) := List Token → Except ParseError (α × List Token)

namespace Reader

/-- The token in front.  A list of tokens ends in the end of input, and that is never taken. -/
def front (ts : List Token) : Token := ts.headD (.atEnd 0)

/-- Fails at the token in front, which is not what was expected. -/
def unexpected {α : Type} (expected : String) (ts : List Token) : Except ParseError α :=
  .error (.unexpected expected (front ts).describe (front ts).span)

/-- Fails at the token in front for want of levels. -/
def tooDeep {α : Type} (ts : List Token) : Except ParseError α :=
  .error (.tooDeep maxNesting (front ts).span)

/-- The operator in front, if it continues a chain of operators that bind at least as tightly as
`least`.  Powers are no part of chains. -/
def chainOperator? (least : Precedence) (ts : List Token) : Option BinaryOp :=
  (front ts).kind.operator?.filter fun op =>
    least.rank ≤ op.precedence.rank && op.precedence.rank < Precedence.exponent.rank

/-- Arguments up to the closing parenthesis, at least one and at most as many as the number
given. -/
def argumentList (expression : Reader Expr) : Nat → Reader (List Expr)
  | 0, ts => unexpected "',' or ')'" ts
  | more + 1, ts => do
    let (argument, ts) ← expression ts
    match ts with
    | ⟨.symbol .rightParen, _⟩ :: ts => pure ([argument], ts)
    | ⟨.symbol .comma, _⟩ :: ts => do
      let (rest, ts) ← argumentList expression more ts
      pure (argument :: rest, ts)
    | _ => unexpected "',' or ')'" ts

/-- What stands between the parentheses of a call, and the closing one.  There are fewer
arguments than tokens. -/
def arguments (expression : Reader Expr) : Reader (List Expr)
  | ⟨.symbol .rightParen, _⟩ :: ts => pure ([], ts)
  | ts => argumentList expression (ts.length + 1) ts

/-- A number, a variable, a call, or an expression in parentheses. -/
def primary (expression : Reader Expr) : Reader Expr
  | ⟨.number digits, span⟩ :: ts =>
    match Decimal.read? digits with
    | some value => pure (.num value, ts)
    | none => .error (.invalidNumber digits span)
  | ⟨.name name, _⟩ :: ⟨.symbol .leftParen, _⟩ :: ts => do
    let (arguments, ts) ← arguments expression ts
    pure (.call name arguments, ts)
  | ⟨.name name, _⟩ :: ts => pure (.var name, ts)
  | ⟨.symbol .leftParen, _⟩ :: ts => do
    let (inner, ts) ← expression ts
    match ts with
    | ⟨.symbol .rightParen, _⟩ :: ts => pure (.group inner, ts)
    | _ => unexpected "')'" ts
  | ts => unexpected "expression" ts

end Reader

/-- The readers that have a certain number of levels left. -/
structure Readers where
  /-- A factor. -/
  factor : Reader Expr
  /-- The rest of a chain whose operators bind at least as tightly as given, after an operand. -/
  extend : Precedence → Expr → Reader Expr

namespace Readers

/-- A chain: a factor and what continues it. -/
def chain (readers : Readers) (least : Precedence) : Reader Expr := fun ts => do
  let (left, ts) ← readers.factor ts
  readers.extend least left ts

/-- An expression. -/
def expression (readers : Readers) : Reader Expr := readers.chain .term

/-- No level left: no factor can be read, and a chain can only end. -/
def ground : Readers where
  factor ts := Reader.tooDeep ts
  extend least left ts :=
    match Reader.chainOperator? least ts with
    | some _ => Reader.tooDeep ts
    | none => pure (left, ts)

/-- One level more than `below`. -/
def above (below : Readers) : Readers where
  factor
    | ⟨.symbol .plus, _⟩ :: ts => below.factor ts
    | ⟨.symbol .minus, _⟩ :: ts => do
      let (operand, ts) ← below.factor ts
      pure (.neg operand, ts)
    | ts => do
      let (base, ts) ← Reader.primary below.expression ts
      match ts with
      | ⟨.symbol .caret, _⟩ :: ts => do
        let (exponent, ts) ← below.factor ts
        pure (.binary .power base exponent, ts)
      | _ => pure (base, ts)
  extend least left ts :=
    match Reader.chainOperator? least ts with
    | some op => do
      let (right, ts) ← below.chain op.precedence.next ts.tail
      below.extend least (.binary op left right) ts
    | none => pure (left, ts)

/-- The readers with a number of levels left. -/
def ofNat : Nat → Readers
  | 0 => ground
  | n + 1 => above (ofNat n)

end Readers

/-- **An expression from a text**, of which nothing may be left. -/
def parse (s : String) : Except ParseError Expr := do
  let (e, ts) ← (Readers.ofNat maxNesting).expression (scan s)
  if (Reader.front ts).isEnd then pure e
  else .error (.trailing (Reader.front ts).describe (Reader.front ts).span)

end Abacus
