import Abacus.CommandLine.Report
import Abacus.Dialogue
import Abacus.Folder

/-!
# Conversations

A dialogue on the input of the program.  Each turn starts with a prompt and a line of the input,
which may be no text; the conversation ends when a line asks for it, at a line that is no text, or
at the end of the input, and then leaves the history to be kept.

## Main definitions

* `Dialogue.turn`: what one line leads to;
* `Dialogue.closed`: the end of the input;
* `Dialogue.converse`: a conversation over an input known beforehand;
* `inputLines`: the lines of an input.
-/

namespace Abacus

namespace Dialogue

/-- What is left of a dialogue that ends with a text and an exit code. -/
def report (output : Output) (exitCode : Nat) (d : Dialogue) : Report :=
  ⟨output, exitCode, some (History.toText d.history)⟩

/-- The end of the input ends the line of the prompt. -/
def closed (d : Dialogue) : Report := d.report (.ofOut "\n") CommandLine.exitOk

/-- What is written about a line that is no text. -/
def unreadable (d : Dialogue) : Output :=
  .ofErr (Answer.failureText d.colours CommandLine.failureTag (.input ReadFault.notText.message))

/-- **A turn**: what a line leads to, and the exit code if it ends the dialogue. -/
def turn (d : Dialogue) : Option String → Output × Option Nat × Dialogue
  | none => (d.unreadable, some CommandLine.exitFailure, d)
  | some line =>
    let (reply, d) := d.exchange line
    (reply.output, if reply.quits then some CommandLine.exitOk else none, d)

/-- **A conversation** over the lines of an input. -/
def converse : List (Option String) → Dialogue → Report
  | [], d => { d.closed with output := .ofOut prompt ++ d.closed.output }
  | line :: rest, d =>
    match d.turn line with
    | (output, some exitCode, d) => d.report (.ofOut prompt ++ output) exitCode
    | (output, none, d) =>
      let report := converse rest d
      { report with output := .ofOut prompt ++ output ++ report.output }

end Dialogue

/-- The lines of an input, each with its line feed. -/
def breakInput : List UInt8 → List (List UInt8)
  | [] => []
  | b :: bs =>
    if b = 10 then [b] :: breakInput bs
    else
      match breakInput bs with
      | [] => [[b]]
      | line :: rest => (b :: line) :: rest

/-- The lines of an input as texts, where they are. -/
def inputLines (input : ByteArray) : List (Option String) :=
  (breakInput input.toList).map fun line => String.fromUTF8? ⟨line.toArray⟩

end Abacus
