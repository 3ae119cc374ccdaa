import Abacus.Program.Listing
import Abacus.Session

/-!
# Answers

What a line of text makes the program write, in a dialogue as well as from a file: on the standard
output the value, after the listing of the line's program if listings are wanted; on the error
output what went wrong, after a tag.

## Main definitions

* `Output`: texts for the two outputs;
* `Session.executeListed`: a line, compiled for its listing first;
* `Answer`: what was found out about a line, and how it is written.
-/

namespace Abacus

/-- Texts for the standard output and for the error output. -/
structure Output where
  out : String
  err : String
deriving DecidableEq, Repr

namespace Output

/-- Nothing is written. -/
def nothing : Output := ⟨"", ""⟩

/-- A text for the standard output. -/
def ofOut (s : String) : Output := ⟨s, ""⟩

/-- A text for the error output. -/
def ofErr (s : String) : Output := ⟨"", s⟩

/-- One output after another. -/
def append (a b : Output) : Output := ⟨a.out ++ b.out, a.err ++ b.err⟩

instance : Append Output := ⟨append⟩

@[simp] theorem out_append (a b : Output) : (a ++ b).out = a.out ++ b.out := rfl

@[simp] theorem err_append (a b : Output) : (a ++ b).err = a.err ++ b.err := rfl

/-- Records of the log are written to the error output, a line each. -/
def ofEvents (colours : Bool) (events : List Event) : Output :=
  ofErr (String.join (events.map fun e => e.record.line colours ++ "\n"))

end Output

/-- What was found out about a line. -/
structure Answer where
  /-- The program to list before the result. -/
  listed : Option Program
  result : Except Failure Outcome

namespace Answer

/-- The line failed. -/
def isFailure (a : Answer) : Bool :=
  match a.result with
  | .error _ => true
  | .ok _ => false

/-- A failure after its tag. -/
def failureText (colours : Bool) (tag : String) (e : Failure) : String :=
  Text.Style.redBold.paint colours tag ++ " " ++ e.message ++ "\n"

/-- What is written for a line.  A definition is silent. -/
def output (colours : Bool) (tag : String) (a : Answer) : Output :=
  .ofOut ((a.listed.map Program.listing).getD "") ++
    match a.result with
    | .ok (.value x) => .ofOut (Decimal.plain x ++ "\n")
    | .ok (.defined _) => .nothing
    | .error e => .ofErr (failureText colours tag e)

end Answer

namespace Session

/-- **A line**, compiled for its listing first if that is wanted and the line defines nothing.  A
line that has no program is not executed. -/
def executeListed (listings : Bool) (line : String) (s : Session) : Answer × Session :=
  if listings && !isDefinition line then
    match s.compile line with
    | (.error e, s) => (⟨none, .error e⟩, s)
    | (.ok p, s) =>
      let (result, s) := s.execute line
      (⟨some p, result⟩, s)
  else
    let (result, s) := s.execute line
    (⟨none, result⟩, s)

end Session

end Abacus
