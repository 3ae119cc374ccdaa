import Abacus.Span

/-!
# Tokens

The pieces a line of arithmetic is made of: numbers, names, nine symbols, and whatever else a
line may hold, one character at a time.  The end of the line is a token too.

## Main definitions

* `Lexeme`: what a token is, with its text;
* `Lexeme.spelling`: the characters it was read from;
* `Token`: a lexeme and its place;
* `Kind`: a lexeme without its text, for asking whether one may stand here.
-/

namespace Abacus

/-- The nine characters that are tokens by themselves. -/
inductive Symbol where
  | plus | minus | star | slash | percent | caret | leftParen | rightParen | comma
deriving DecidableEq, Repr

namespace Symbol

/-- The character of a symbol. -/
def char : Symbol → Char
  | plus => '+' | minus => '-' | star => '*' | slash => '/' | percent => '%' | caret => '^'
  | leftParen => '(' | rightParen => ')' | comma => ','

/-- The symbol a character stands for, if it is one. -/
def ofChar? (c : Char) : Option Symbol :=
  match c with
  | '+' => some plus | '-' => some minus | '*' => some star | '/' => some slash
  | '%' => some percent | '^' => some caret | '(' => some leftParen | ')' => some rightParen
  | ',' => some comma | _ => none

@[simp] theorem ofChar?_char (s : Symbol) : ofChar? s.char = some s := by cases s <;> rfl

theorem char_of_ofChar? {c : Char} {s : Symbol} (h : ofChar? c = some s) : s.char = c := by
  unfold ofChar? at h
  split at h <;> simp only [Option.some.injEq, reduceCtorEq] at h
  all_goals subst h; rfl

end Symbol

/-- The sorts of token a reader can ask for. -/
inductive Kind where
  | number | name | symbol (s : Symbol) | unexpected | endOfInput
deriving DecidableEq, Repr

namespace Kind

/-- A sort of token in words; a symbol is shown between single quotes. -/
def describe : Kind → String
  | number => "number"
  | name => "identifier"
  | symbol s => "'" ++ s.char.toString ++ "'"
  | unexpected => "character"
  | endOfInput => "end of input"

end Kind

/-- What a token is. -/
inductive Lexeme where
  /-- Digits, with at most one point after the first of them. -/
  | number (digits : String)
  /-- Letters and underscores. -/
  | name (text : String)
  | symbol (s : Symbol)
  /-- A character no other lexeme can start with. -/
  | unexpected (c : Char)
  | endOfInput
deriving DecidableEq, Repr

namespace Lexeme

/-- The sort of a lexeme. -/
def kind : Lexeme → Kind
  | number _ => .number
  | name _ => .name
  | symbol s => .symbol s
  | unexpected _ => .unexpected
  | endOfInput => .endOfInput

/-- The characters a lexeme is read from. -/
def spelling : Lexeme → List Char
  | number digits => digits.toList
  | name text => text.toList
  | symbol s => [s.char]
  | unexpected c => [c]
  | endOfInput => []

/-- The text a lexeme carries: none for a symbol, whose sort says it all. -/
def text : Lexeme → String
  | number digits => digits
  | name text => text
  | unexpected c => c.toString
  | symbol _ | endOfInput => ""

/-- A lexeme in words, as messages name it. -/
def describe : Lexeme → String
  | number digits => "number '" ++ digits ++ "'"
  | name text => "identifier '" ++ text ++ "'"
  | unexpected c => "character '" ++ c.toString ++ "'"
  | symbol s => (Kind.symbol s).describe
  | endOfInput => Kind.endOfInput.describe

end Lexeme

/-- A lexeme and where it stands. -/
structure Token where
  lexeme : Lexeme
  span : Span
deriving DecidableEq, Repr

namespace Token

/-- The sort of a token. -/
def kind (t : Token) : Kind := t.lexeme.kind

/-- The end of a text, at an offset. -/
def atEnd (offset : Nat) : Token := ⟨.endOfInput, .point offset⟩

/-- The token in words. -/
def describe (t : Token) : String := t.lexeme.describe

/-- The token is the end of the text. -/
def isEnd (t : Token) : Bool := t.lexeme == .endOfInput

end Token

end Abacus
