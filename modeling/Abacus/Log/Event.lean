import Abacus.Expr.Print
import Abacus.Log
import Abacus.Program.Dump

/-!
# Events

What the program reports to its log while it works.  An event carries what it is about; its
level, the part it comes from and its wording follow from it.

## Main definitions

* `Event`: the events;
* `Event.record`: an event as a record;
* `Log`: a threshold, and the events it let through.
-/

namespace Abacus

/-- What is reported to the log. -/
inductive Event where
  /-- A text was read as an expression. -/
  | parsed (e : Expr)
  /-- An expression was compiled. -/
  | compiled (p : Program)
  /-- The program it was compiled to. -/
  | dumped (p : Program)
  /-- No stack was waiting, and a new one was made. -/
  | stackMade (capacity : Nat)
  /-- As many stacks were waiting as may, and one was dropped. -/
  | stackDropped
  /-- A run left a value. -/
  | finished (value : Float)
  | variableDefined (name : String) (value : Float)
  | functionDefined (signature : String)
  /-- The value of a setting was no number. -/
  | settingIgnored (name value : String)

namespace Event

/-- How severe an event is. -/
def level : Event → Level
  | parsed _ | dumped _ | finished _ => .trace
  | compiled _ | stackMade _ | stackDropped | variableDefined _ _ | functionDefined _ => .debug
  | settingIgnored _ _ => .warn

/-- The part an event comes from. -/
def target : Event → String
  | parsed _ => "reckon::parser::core"
  | compiled _ | dumped _ => "reckon::bytecode::compiler"
  | stackMade _ | stackDropped => "reckon::bytecode::pool"
  | finished _ => "reckon::bytecode::vm"
  | variableDefined _ _ | functionDefined _ => "reckon::session"
  | settingIgnored _ _ => "reckon::bytecode::config"

/-- An event in words. -/
def message : Event → String
  | parsed e => "parsed " ++ e.print
  | compiled p =>
    "compiled " ++ toString p.size ++ " opcodes (" ++ toString p.tables.values.length ++
      " values, " ++ toString p.tables.names.length ++ " vars, " ++
      toString p.tables.calls.length ++ " calls)"
  | dumped p => "program: " ++ p.dump
  | stackMade capacity => "stack pool empty, allocating " ++ toString capacity ++ " slots"
  | stackDropped => "stack pool full, dropping buffer"
  | finished value => "run finished with " ++ Decimal.plain value
  | variableDefined name value => "defined " ++ name ++ " = " ++ Decimal.plain value
  | functionDefined signature => "defined " ++ signature
  | settingIgnored name value =>
    "ignoring " ++ name ++ "=" ++ Text.quoted value ++ ": not a valid number"

/-- An event as a record. -/
def record (e : Event) : Record := ⟨e.level, e.target, e.message⟩

end Event

/-- A threshold, and the events it let through, the newest first. -/
structure Log where
  threshold : Threshold
  newestFirst : List Event

namespace Log

/-- A log that holds nothing yet. -/
def empty (threshold : Threshold) : Log := ⟨threshold, []⟩

/-- Reports an event; it is kept if the threshold admits it. -/
def report (e : Event) (log : Log) : Log :=
  if log.threshold.admits e.level then { log with newestFirst := e :: log.newestFirst } else log

/-- The events in the order in which they were reported. -/
def events (log : Log) : List Event := log.newestFirst.reverse

/-- The same log without its events. -/
def flushed (log : Log) : Log := empty log.threshold

/-- An event that is admitted comes last, any other leaves no trace. -/
theorem events_report (e : Event) (log : Log) :
    (log.report e).events =
      if log.threshold.admits e.level then log.events ++ [e] else log.events := by
  unfold report events
  split <;> simp

end Log

end Abacus
