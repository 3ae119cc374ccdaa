import Abacus.CommandLine

/-!
# The program

Gathers what a start needs from the system, and writes what the library answers.  Nothing is
decided here.
-/

namespace Abacus

/-- The fault with a number of the system; some of its calls negate the number. -/
def ReadFault.ofNumber (number : UInt32) (reason : String) : ReadFault :=
  if number = 20 ∨ number = -20 then .notFolder
  else if number = 21 ∨ number = -21 then .isFolder
  else if number = 36 ∨ number = -36 then .nameTooLong
  else .other reason

/-- A fault of the system when a file is read. -/
def ReadFault.ofError : IO.Error → ReadFault
  | .noFileOrDirectory _ _ _ => .missing
  | .inappropriateType _ number reason | .invalidArgument _ number reason =>
    .ofNumber number reason
  | e => .other (toString e)

/-- A file of the system. -/
def readFile (path : String) : IO (Except ReadFault ByteArray) := do
  try
    pure (.ok (← IO.FS.readBinFile path))
  catch e =>
    pure (.error (.ofError e))

/-- The variables of the process that matter: those the program consults, and those that a file of
variables mentions. -/
def processVariables (file : Option ByteArray) : IO EnvFile.Variables := do
  let mentioned := (EnvFile.assignments (EnvFile.contentOf file)).map (·.1)
  (CommandLine.consulted ++ mentioned).foldlM (fun vars name => do
    match ← IO.getEnv name with
    | some value => pure (vars.insert name value)
    | none => pure vars) .empty

/-- Where the history is kept: in the user's own folder, or else where the program runs. -/
def historyPath : IO String := do
  match ← IO.getEnv "HOME" with
  | some home => pure (home ++ "/" ++ History.fileName)
  | none => pure History.fileName

/-- What the program finds when it is started.  Of the files it reads only those that it may need:
the file of variables, the one that the arguments name, and the history. -/
def gather (arguments : List String) : IO Invocation := do
  let envFile ← readFile CommandLine.envFileName
  let named ←
    match Request.ofArguments arguments with
    | .work ⟨.file path, _, _⟩ => readFile path
    | _ => pure (.error .missing)
  let history ← readFile (← historyPath)
  pure {
    arguments
    vars := ← processVariables envFile.toOption
    folder := fun path => if path = CommandLine.envFileName then envFile else named
    history := history.toOption
    terminal := ← (← IO.getStdout).isTty }

/-- Writes to both outputs. -/
def write (output : Output) : IO Unit := do
  IO.print output.out
  (← IO.getStdout).flush
  IO.eprint output.err

/-- Writes what is left to write, and keeps the history if the system lets it. -/
def conclude (report : Report) : IO UInt32 := do
  write report.output
  if let some history := report.history then
    try
      IO.FS.writeFile (← historyPath) history
    catch _ =>
      pure ()
  pure (UInt32.ofNat report.exitCode)

/-- The bytes of a line, after those read already; none at the end of the input. -/
partial def readLine (input : IO.FS.Stream) (read : ByteArray) : IO ByteArray := do
  let more ← input.read 1
  if more.isEmpty then
    pure read
  else if more = ⟨#[10]⟩ then
    pure (read ++ more)
  else
    readLine input (read ++ more)

/-- A dialogue, turn by turn.  A line is read when the replies to all earlier ones are written. -/
partial def talk (input : IO.FS.Stream) (d : Dialogue) : IO Report := do
  write (.ofOut Dialogue.prompt)
  let line ← readLine input .empty
  if line.isEmpty then
    pure d.closed
  else
    match d.turn (String.fromUTF8? line) with
    | (output, some exitCode, d) => pure (d.report output exitCode)
    | (output, none, d) =>
      write output
      talk input d

end Abacus

/-- The program, from its arguments to its exit code. -/
def main (arguments : List String) : IO UInt32 := do
  match Abacus.CommandLine.start (← Abacus.gather arguments) with
  | .done report => Abacus.conclude report
  | .dialogue output d =>
    Abacus.write output
    Abacus.conclude (← Abacus.talk (← IO.getStdin) d)
