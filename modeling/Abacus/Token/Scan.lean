import Abacus.Text.Blank
import Abacus.Text.Alphabetic
import Abacus.Token

/-!
# Scanning

Cutting a text into tokens.  Blanks separate; otherwise each token is the longest one that starts
where the last one ended: a symbol is one character, a number a run of ASCII digits with at most
one point after the first, a name a run of letters and underscores, and any other character a
token of its own.

A `Cursor` is a place in a text: what is left to read and the byte offset reached.  Looking ahead
is reading and keeping the old cursor.

## Main definitions

* `Lexeme.readAt`: the longest lexeme at a character that is not blank, and what follows it;
* `Cursor.next`: the next token and the cursor behind it;
* `Cursor.tokens`, `scan`: all tokens of a text, closed by the end of input.

## Main results

* `Lexeme.spelling_append_rest`: a lexeme and what follows it are the text they were read from.
-/

namespace Abacus

/-- The characters a name is made of. -/
def isNameChar (c : Char) : Bool :=
  Text.isAlphabetic c || c == '_'

/-- The number of bytes the characters take in UTF-8. -/
def byteLength : List Char → Nat
  | [] => 0
  | c :: cs => c.utf8Size + byteLength cs

@[simp] theorem byteLength_nil : byteLength [] = 0 := rfl

@[simp] theorem byteLength_cons (c : Char) (cs : List Char) :
    byteLength (c :: cs) = c.utf8Size + byteLength cs := rfl

@[simp] theorem byteLength_append (as bs : List Char) :
    byteLength (as ++ bs) = byteLength as + byteLength bs := by
  induction as with
  | nil => simp
  | cons c cs ih => simp [ih, Nat.add_assoc]

/-- The longest run of digits with at most one point at the front of a text, and the rest. -/
def splitNumber (cs : List Char) : List Char × List Char :=
  let whole := cs.takeWhile Char.isDigit
  match cs.dropWhile Char.isDigit with
  | '.' :: rest => (whole ++ '.' :: rest.takeWhile Char.isDigit, rest.dropWhile Char.isDigit)
  | rest => (whole, rest)

theorem splitNumber_append (cs : List Char) : (splitNumber cs).1 ++ (splitNumber cs).2 = cs := by
  have h := List.takeWhile_append_dropWhile (p := Char.isDigit) (l := cs)
  unfold splitNumber
  split
  · next rest heq =>
    rw [heq] at h
    simpa [List.takeWhile_append_dropWhile] using h
  · exact h

theorem splitNumber_ne_nil {c : Char} {cs : List Char} (h : c.isDigit = true) :
    (splitNumber (c :: cs)).1 ≠ [] := by
  unfold splitNumber
  split <;> simp [h]

/-- **The longest lexeme** at a character that is not blank, and what follows it. -/
def Lexeme.readAt (c : Char) (cs : List Char) : Lexeme × List Char :=
  match Symbol.ofChar? c with
  | some s => (.symbol s, cs)
  | none =>
    if c.isDigit then
      let parts := splitNumber (c :: cs)
      (.number (String.ofList parts.1), parts.2)
    else if isNameChar c then
      (.name (String.ofList (c :: cs.takeWhile isNameChar)), cs.dropWhile isNameChar)
    else (.unexpected c, cs)

/-- A lexeme and what follows it are the text they were read from. -/
theorem Lexeme.spelling_append_rest (c : Char) (cs : List Char) :
    (readAt c cs).1.spelling ++ (readAt c cs).2 = c :: cs := by
  unfold readAt
  split
  · next s h => simp [spelling, Symbol.char_of_ofChar? h]
  · split
    · simp [spelling, splitNumber_append]
    · split <;> simp [spelling]

/-- A lexeme that was read takes at least one character. -/
theorem Lexeme.spelling_ne_nil (c : Char) (cs : List Char) : (readAt c cs).1.spelling ≠ [] := by
  unfold readAt
  split
  · simp [spelling]
  · split
    · next h => simpa [spelling] using splitNumber_ne_nil h
    · split <;> simp [spelling]

theorem Lexeme.length_rest_le (c : Char) (cs : List Char) : (readAt c cs).2.length ≤ cs.length := by
  have h := congrArg List.length (spelling_append_rest c cs)
  have hpos := List.length_pos_iff.2 (spelling_ne_nil c cs)
  simp only [List.length_append, List.length_cons] at h
  omega

/-- A place in a text: what is left of it, and the byte offset where that starts. -/
structure Cursor where
  rest : List Char
  offset : Nat
deriving DecidableEq, Repr

namespace Cursor

/-- The start of a text. -/
def ofText (s : String) : Cursor := ⟨s.toList, 0⟩

/-- The end of the text. -/
def toEnd (k : Cursor) : Cursor := ⟨[], k.offset + byteLength k.rest⟩

/-- The place after the blanks that stand here. -/
def skipBlanks (k : Cursor) : Cursor :=
  ⟨k.rest.dropWhile Text.isBlank, k.offset + byteLength (k.rest.takeWhile Text.isBlank)⟩

theorem length_skipBlanks_le (k : Cursor) : k.skipBlanks.rest.length ≤ k.rest.length := by
  have h := congrArg List.length
    (List.takeWhile_append_dropWhile (p := Text.isBlank) (l := k.rest))
  simp only [List.length_append] at h
  simp only [skipBlanks]
  omega

/-- **The next token**, and the place behind it. -/
def next (k : Cursor) : Token × Cursor :=
  let here := k.skipBlanks
  match here.rest with
  | [] => (.atEnd here.offset, here)
  | c :: cs =>
    let read := Lexeme.readAt c cs
    let stop := here.offset + byteLength read.1.spelling
    (⟨read.1, ⟨here.offset, stop⟩⟩, ⟨read.2, stop⟩)

/-- The next token, the place staying where it is. -/
def peek (k : Cursor) : Token := k.next.1

/-- The place behind the next token if that is of the wanted sort. -/
def consume? (k : Cursor) (wanted : Kind) : Option Cursor :=
  if k.peek.kind = wanted then some k.next.2 else none

theorem length_next_lt {k : Cursor} {c : Char} {cs : List Char} (h : k.skipBlanks.rest = c :: cs) :
    k.next.2.rest.length < k.rest.length := by
  have hskip := k.length_skipBlanks_le
  have hrest := Lexeme.length_rest_le c cs
  rw [h] at hskip
  simp only [List.length_cons] at hskip
  simp only [next, h]
  omega

/-- All tokens from here on, the last one the end of input. -/
def tokens (k : Cursor) : List Token :=
  match _h : k.skipBlanks.rest with
  | [] => [k.next.1]
  | _ :: _ => k.next.1 :: tokens k.next.2
termination_by k.rest.length
decreasing_by exact length_next_lt _h

end Cursor

/-- **The tokens of a text**, closed by the end of input. -/
def scan (s : String) : List Token := (Cursor.ofText s).tokens

end Abacus
