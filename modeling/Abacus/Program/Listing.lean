import Abacus.Decimal.Layout
import Abacus.Program

/-!
# Listings

A program for a reader: each instruction with its operand and with the height the stack will have
once the instruction is done.  The heights follow from the instructions alone, so a listing also
exists for a program that cannot run; where a table has no entry left, a placeholder stands for
the operand.

Heights are counted in signed words of 64 bits, which wrap: a line shows the word.  Only a call of
about `2 ^ 63` arguments makes a difference.

## Main definitions

* `Row`: a line of a listing, `Row.text`: the line in words;
* `Program.rows`: the lines of a program;
* `Program.listing`: the text.
-/

namespace Abacus

/-- A line of a listing.  The operand is empty for an instruction that needs none, and missing
for one whose table is used up. -/
structure Row where
  index : Nat
  instruction : Instruction
  operand : Option String
  /-- The height before it is made a word. -/
  depth : Int
deriving DecidableEq, Repr

namespace CallSite

/-- A call site in a listing. -/
def label (site : CallSite) : String := site.name ++ "/" ++ toString site.arguments

/-- What a call does to the height of the stack: it takes the arguments and leaves a value.  The
number of arguments is a signed word of 64 bits here. -/
def depthChange (site : CallSite) : Int := 1 - Int.bmod site.arguments UInt64.size

end CallSite

namespace Row

/-- What stands for an operand whose table is used up. -/
def placeholder : String := "<missing>"

/-- A number with zeros in front, at least four digits wide. -/
def index4 (n : Nat) : String :=
  let digits := Nat.toDigits 10 n
  String.ofList (List.replicate (4 - digits.length) '0' ++ digits)

/-- A text filled up with spaces behind it. -/
def padded (width : Nat) (s : String) : String :=
  s ++ String.ofList (List.replicate (width - s.length) ' ')

/-- The height that is shown, a word of 64 bits. -/
def height (row : Row) : Int64 := Int64.ofInt row.depth

/-- What is shown, in columns, with the end of the line. -/
def line (index : Nat) (name operand : String) (height : Int) : String :=
  index4 index ++ " " ++ padded 5 name ++ " " ++ padded 12 operand ++ " depth " ++
    toString height ++ "\n"

/-- A line in words. -/
def text (row : Row) : String :=
  line row.index row.instruction.name (row.operand.getD placeholder) row.height.toInt

end Row

namespace Program

/-- The lines for instructions from a given index on, over a stack of a given height. -/
def rowsFrom (index : Nat) (depth : Int) (tables : Tables) : List Instruction → List Row
  | [] => []
  | .num :: rest =>
    ⟨index, .num, tables.values.head?.map Decimal.plain, depth + 1⟩ ::
      rowsFrom (index + 1) (depth + 1) { tables with values := tables.values.tail } rest
  | .var :: rest =>
    ⟨index, .var, tables.names.head?, depth + 1⟩ ::
      rowsFrom (index + 1) (depth + 1) { tables with names := tables.names.tail } rest
  | .operator op :: rest =>
    ⟨index, .operator op, some "", depth - 1⟩ :: rowsFrom (index + 1) (depth - 1) tables rest
  | .neg :: rest => ⟨index, .neg, some "", depth⟩ :: rowsFrom (index + 1) depth tables rest
  | .call :: rest =>
    match tables.calls with
    | [] => ⟨index, .call, none, depth⟩ :: rowsFrom (index + 1) depth tables rest
    | site :: calls =>
      ⟨index, .call, some site.label, depth + site.depthChange⟩ ::
        rowsFrom (index + 1) (depth + site.depthChange) { tables with calls } rest

/-- The lines of a program. -/
def rows (p : Program) : List Row := rowsFrom 0 0 p.tables p.instructions

/-- **The listing** of a program. -/
def listing (p : Program) : String := String.join (p.rows.map Row.text)

/-- A height that is a word as it stands. -/
def isHeight (depth : Int) : Bool :=
  Int64.minValue.toInt ≤ depth && depth ≤ Int64.maxValue.toInt

/-- All heights, and what each call does to them, are words as they stand, so that nothing wraps.
A program with a call site for about `2 ^ 63` arguments may fail this; where arithmetic is checked,
it has no listing then. -/
def isListable (p : Program) : Bool :=
  ((p.tables.calls.take (p.instructions.count .call)).all fun site => isHeight site.depthChange) &&
    p.rows.all fun row => isHeight row.depth

/-- There is one line for each instruction. -/
theorem length_rowsFrom (index : Nat) (depth : Int) (tables : Tables) (is : List Instruction) :
    (rowsFrom index depth tables is).length = is.length := by
  induction is generalizing index depth tables with
  | nil => rfl
  | cons i rest ih =>
    cases i with
    | call => cases h : tables.calls <;> simp [rowsFrom, h, ih]
    | _ => simp [rowsFrom, ih]

end Program

end Abacus
