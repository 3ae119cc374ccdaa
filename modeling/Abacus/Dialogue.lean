import Abacus.Answer
import Abacus.Dialogue.History

/-!
# Dialogues

A session a user talks to, line by line.  Some lines are commands, which start with a colon but
for the word `exit`; all others go to the session.  Every line that is not empty enters the
history, whatever becomes of it.

## Main definitions

* `Command`, `Command.ofLine`: what a line asks for;
* `Dialogue`, `Dialogue.handle`: the state between lines, and a line;
* `Dialogue.exchange`: a line as it was typed, with the records of the log.
-/

namespace Abacus

/-- What a line asks for. -/
inductive Command where
  | quit
  | clearScreen
  | help
  | definitions
  | history
  /-- The line looks like a command, but is none. -/
  | unknown
  /-- The line is for the session. -/
  | calculate
deriving DecidableEq, Repr

/-- What a line asks for. -/
def Command.ofLine (line : String) : Command :=
  if line = ":q" ∨ line = ":quit" ∨ line = "exit" then quit
  else if line = ":clear" then clearScreen
  else if line = ":help" then help
  else if line = ":vars" then definitions
  else if line = ":history" then history
  else if line.toList.head? = some ':' then unknown
  else calculate

/-- What is known between the lines of a dialogue. -/
structure Dialogue where
  session : Session
  history : List String
  /-- Values are written after the listings of their programs. -/
  listings : Bool
  colours : Bool

/-- What a line leads to. -/
structure Reply where
  output : Output
  /-- The dialogue is over. -/
  quits : Bool
deriving DecidableEq, Repr

namespace Dialogue

/-- What the program says first. -/
def greeting : String :=
  "Reckon 0.4.0 - expression evaluator\nType :help for available commands.\n\n"

/-- What stands before each line. -/
def prompt : String := ">> "

/-- Clears the screen of a terminal. -/
def clearScreen : String := "\x1b[H\x1b[2J"

/-- What the user can enter, line by line. -/
def helpLines : List String :=
  ["",
   "Reckon REPL Commands",
   "",
   "<expr>             - Evaluate an expression, e.g. 2 * (3 + 4)",
   "name = <expr>      - Define a variable",
   "f(a, b) = <expr>   - Define a function",
   ":vars              - List user-defined variables and functions",
   ":history           - Show command history",
   ":clear             - Clear the screen",
   ":help              - Show this help message",
   ":q / exit / Ctrl+D - Exit the REPL",
   ""]

/-- The tag before what went wrong. -/
def failureTag : String := "error:"

/-- The definitions of a session, in order of their names. -/
def definitionsText (g : Globals) : String :=
  if g.values.isEmpty && g.functions.isEmpty then "Nothing defined.\n"
  else
    let values := g.values.entries.map fun entry =>
      "  " ++ entry.1 ++ " = " ++ Decimal.plain entry.2 ++ "\n"
    let functions := g.functions.names.map fun name => "  " ++ name ++ "\n"
    (if g.values.isEmpty then "" else "Variables:\n" ++ String.join values) ++
      (if g.functions.isEmpty then "" else "Functions:\n" ++ String.join functions)

/-- **A line of a dialogue.**  The empty line leads to nothing and leaves no trace. -/
def handle (line : String) (d : Dialogue) : Reply × Dialogue :=
  if line = "" then (⟨.nothing, false⟩, d)
  else
    let d := { d with history := d.history ++ [line] }
    match Command.ofLine line with
    | .quit => (⟨.nothing, true⟩, d)
    | .clearScreen => (⟨.ofOut clearScreen, false⟩, d)
    | .help => (⟨.ofOut (Text.ofLines helpLines), false⟩, d)
    | .definitions => (⟨.ofOut (definitionsText d.session.globals), false⟩, d)
    | .history => (⟨.ofOut ("History:\n" ++ History.numberedFrom 1 d.history), false⟩, d)
    | .unknown =>
      (⟨.ofErr ("Unknown command: " ++ line ++ ". Type :help for available commands.\n"), false⟩, d)
    | .calculate =>
      let (answer, session) := d.session.executeListed d.listings line
      (⟨answer.output d.colours failureTag, false⟩, { d with session })

/-- A line as it was typed, without its outer blanks.  What the log has to say about it is written
before the reply. -/
def exchange (line : String) (d : Dialogue) : Reply × Dialogue :=
  let (reply, d) := d.handle (Text.trim line)
  let (events, session) := d.session.takeEvents
  (⟨.ofEvents d.colours events ++ reply.output, reply.quits⟩, { d with session })

end Dialogue

end Abacus
