/-!
# Spans

A span is a range of byte offsets into a line of text, its end excluded.  Columns are counted
from one.
-/

namespace Abacus

/-- A range of byte offsets. -/
structure Span where
  start : Nat
  stop : Nat
deriving DecidableEq, Repr

namespace Span

/-- The empty span at an offset. -/
def point (offset : Nat) : Span := ⟨offset, offset⟩

/-- The smallest span that covers two others. -/
def merge (a b : Span) : Span := ⟨min a.start b.start, max a.stop b.stop⟩

/-- The number of bytes covered; a span that stops before it starts has none. -/
def length? (a : Span) : Option Nat :=
  if a.start ≤ a.stop then some (a.stop - a.start) else none

/-- The span stops where it starts. -/
def isEmpty (a : Span) : Bool := a.start == a.stop

/-- Columns are words of 64 bits, so the last offset that is one has no column. -/
def hasColumn (a : Span) : Bool := a.start + 1 < UInt64.size

/-- The place of a span in words, as messages name it. -/
def describe (a : Span) : String := "column " ++ toString (a.start + 1)

@[simp] theorem length?_point (p : Nat) : (point p).length? = some 0 := by simp [point, length?]

theorem merge_comm (a b : Span) : a.merge b = b.merge a := by
  simp [merge, Nat.min_comm, Nat.max_comm]

end Span

end Abacus
