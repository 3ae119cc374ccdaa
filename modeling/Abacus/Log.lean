import Abacus.Text.Blank
import Abacus.Text.Style

/-!
# Levels and records of the log

A record has a level, the name of the part it comes from, and a message.  A threshold lets
records through that are at least as severe as its level.

## Main definitions

* `Level`, `Threshold`, `Threshold.read?`;
* `Threshold.admits`: which records get through;
* `Record.line`: a record as a line of text.
-/

namespace Abacus

/-- How severe a record is, the most severe first. -/
inductive Level where
  | error | warn | info | debug | trace
deriving DecidableEq, Repr

namespace Level

/-- The rank of a level; less severe levels have higher ranks. -/
def rank : Level → Nat
  | error => 1
  | warn => 2
  | info => 3
  | debug => 4
  | trace => 5

/-- The name of a level in the log. -/
def name : Level → String
  | error => "ERROR"
  | warn => "WARN"
  | info => "INFO"
  | debug => "DEBUG"
  | trace => "TRACE"

/-- The style of the name. -/
def style : Level → Text.Style
  | error => .redBold
  | warn => .yellowBold
  | info => .green
  | debug => .blue
  | trace => .dimmed

end Level

/-- What the log lets through: nothing, or records down to a level. -/
inductive Threshold where
  | off
  | upTo (level : Level)
deriving DecidableEq, Repr

namespace Threshold

/-- A record of this level gets through. -/
def admits : Threshold → Level → Bool
  | off, _ => false
  | upTo least, level => level.rank ≤ least.rank

/-- The name of a threshold. -/
def name : Threshold → String
  | off => "OFF"
  | upTo level => level.name

/-- All thresholds. -/
def all : List Threshold :=
  [off, upTo .error, upTo .warn, upTo .info, upTo .debug, upTo .trace]

/-- The threshold a text names, in any case of its ASCII letters and between any blanks. -/
def read? (s : String) : Option Threshold :=
  all.find? fun t => t.name.toList == (Text.trim s).toList.map Char.toUpper

/-- The threshold where none is set, or none that can be read. -/
def standard : Threshold := upTo .warn

end Threshold

/-- A record of the log. -/
structure Record where
  level : Level
  /-- The part of the program it comes from. -/
  target : String
  message : String
deriving DecidableEq, Repr

/-- A record as a line of text, without its end. -/
def Record.line (colours : Bool) (r : Record) : String :=
  "[" ++ r.level.style.paint colours r.level.name ++ "] " ++ r.target ++ ": " ++ r.message

end Abacus
