import Abacus.CommandLine.Conversation
import Abacus.CommandLine.Options
import Abacus.EnvFile

/-!
# The command line

What the program does when it is started: it sets variables from the file `.env`, takes the
threshold of the log from them, reads its arguments, and then evaluates a line, a file, or what a
user types.

A start either settles everything or begins a dialogue, whose turns whoever runs it can take one
by one; `CommandLine.run` is the whole of it for an input known beforehand.

The settings that the variables make are taken to be `Settings.isAllocatable`.

## Main definitions

* `Invocation`: what the program finds when it is started;
* `Start`: it is done, or a dialogue begins;
* `CommandLine.start`, `CommandLine.run`.
-/

namespace Abacus

/-- What the program finds when it is started. -/
structure Invocation where
  arguments : List String
  vars : EnvFile.Variables
  folder : Folder
  /-- The file with the history, if there is one. -/
  history : Option ByteArray
  /-- The standard output is a terminal. -/
  terminal : Bool

/-- What a start leads to. -/
inductive Start where
  | done (report : Report)
  /-- A dialogue, after what is written before it. -/
  | dialogue (output : Output) (d : Dialogue)

namespace CommandLine

/-- The line with the program's version. -/
def versionText : String := "reckon 0.4.0\n"

/-- How the program is to be called, line by line. -/
def usageLines : List String :=
  ["Reckon 0.4.0 - arithmetic expression evaluator",
   "",
   "Usage: reckon [options] [file]",
   "       reckon [options] -e <expression>",
   "",
   "Options:",
   "  -e <expr>       Evaluate an expression and print the result",
   "  --tree-walk     Evaluate by walking the syntax tree instead of the VM",
   "  --disassemble   Print the bytecode of each expression before running it",
   "  -h, --help      Show this help message",
   "  -V, --version   Show version information",
   "",
   "Without a file or -e, an interactive REPL is started.",
   "",
   "Environment:",
   "  RECKON_LOG              Log level (off, error, warn, info, debug, trace)",
   "  RECKON_STACK_POOL_SIZE  Idle VM stacks kept for reuse",
   "  RECKON_STACK_CAPACITY   Initial capacity of a VM stack"]

/-- The file that sets variables. -/
def envFileName : String := ".env"

/-- The variables of the process that have a meaning for the program. -/
def consulted : List String :=
  [thresholdVariable, Settings.poolSizeVariable, Settings.capacityVariable] ++
    Text.Style.consulted

/-- A line and what it writes, records of the log first; it may have failed. -/
def evaluateLine (listings colours : Bool) (line : String) (s : Session) :
    Output × Bool × Session :=
  let (answer, s) := s.executeListed listings line
  let (events, s) := s.takeEvents
  (.ofEvents colours events ++ answer.output colours failureTag, answer.isFailure, s)

/-- A line of a file that is skipped: blank, or a comment. -/
def isSkipped (line : String) : Bool :=
  line = "" || line.toList.head? = some '#'

/-- The lines of a file from a number on, up to the first that fails. -/
def evaluateLines (listings colours : Bool) (path : String) :
    Nat → List String → Session → Output × Nat
  | _, [], _ => (.nothing, exitOk)
  | number, line :: rest, s =>
    let line := Text.trim line
    if isSkipped line then evaluateLines listings colours path (number + 1) rest s
    else
      match evaluateLine listings colours line s with
      | (output, true, _) =>
        (output ++ .ofErr ("  at " ++ path ++ ":" ++ toString number ++ "\n"), exitFailure)
      | (output, false, s) =>
        let (more, exitCode) := evaluateLines listings colours path (number + 1) rest s
        (output ++ more, exitCode)

/-- A file, line by line. -/
def evaluateFile (listings colours : Bool) (folder : Folder) (path : String) (s : Session) :
    Output × Nat :=
  match folder.readText path with
  | .ok content => evaluateLines listings colours path 1 (Text.lines content) s
  | .error fault =>
    (.ofErr (Text.Style.redBold.paint colours failureTag ++ " cannot read '" ++ path ++ "': " ++
      fault.message ++ "\n"), exitNoInput)

/-- What is evaluated, once variables and options are settled. -/
def begin (i : Invocation) (vars : EnvFile.Variables) (o : Options) : Start :=
  let threshold := thresholdOfVariables vars.find?
  let colours := Text.Style.enabled vars.find? i.terminal
  let (settings, events) := Settings.ofVariables vars.find?
  let reported := Output.ofEvents colours (events.filter fun e => threshold.admits e.level)
  let session := Session.new o.strategy settings threshold
  match o.task with
  | .line text =>
    let (output, failed, _) := evaluateLine o.listings colours (Text.trim text) session
    .done ⟨reported ++ output, if failed then exitFailure else exitOk, none⟩
  | .file path =>
    let (output, exitCode) := evaluateFile o.listings colours i.folder path session
    .done ⟨reported ++ output, exitCode, none⟩
  | .dialogue =>
    .dialogue (reported ++ .ofOut Dialogue.greeting)
      ⟨session, History.ofFile i.history, o.listings, colours⟩

/-- **A start**: variables first, then arguments. -/
def start (i : Invocation) : Start :=
  let file := (i.folder envFileName).toOption
  if EnvFile.isRefused false file i.vars then .done ⟨.nothing, exitRefused, none⟩
  else
    let vars := (EnvFile.loadFile false file i.vars).2
    match Request.ofArguments i.arguments with
    | .help => .done ⟨.ofErr (Text.ofLines usageLines), exitOk, none⟩
    | .version => .done ⟨.ofOut versionText, exitOk, none⟩
    | .misuse message => .done ⟨.ofErr (Text.ofLines (message :: usageLines)), exitUsage, none⟩
    | .work options => begin i vars options

/-- **The whole of the program** for an input known beforehand. -/
def run (i : Invocation) (input : ByteArray) : Report :=
  match start i with
  | .done report => report
  | .dialogue output d =>
    let report := d.converse (inputLines input)
    { report with output := output ++ report.output }

end CommandLine

end Abacus
