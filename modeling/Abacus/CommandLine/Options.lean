import Abacus.Formula

/-!
# Options of the command line

The arguments are read from left to right; the first one that asks for help or for the version, or
that cannot be understood, settles what happens.

## Main definitions

* `Task`, `Options`, `Request`;
* `Request.ofArguments`: what the arguments ask for.
-/

namespace Abacus

/-- What is to be evaluated. -/
inductive Task where
  /-- The lines a user types. -/
  | dialogue
  /-- The lines of a file. -/
  | file (path : String)
  /-- One line, given as an argument. -/
  | line (text : String)
deriving DecidableEq, Repr

/-- What the arguments settle. -/
structure Options where
  task : Task
  strategy : Strategy
  /-- Values are written after the listings of their programs. -/
  listings : Bool
deriving DecidableEq, Repr

namespace Options

/-- Without arguments: a dialogue, on the stack machine, without listings. -/
def default : Options := ⟨.dialogue, .stackMachine, false⟩

end Options

/-- What the arguments ask for. -/
inductive Request where
  | work (options : Options)
  | help
  | version
  /-- The arguments make no sense. -/
  | misuse (message : String)
deriving DecidableEq, Repr

namespace Request

/-- There is only one thing to evaluate. -/
def secondTask : Request := .misuse "Only one of -e or a file can be given"

/-- What the arguments ask for, after those that settled some options. -/
def ofArgumentsFrom (o : Options) : List String → Request
  | [] => .work o
  | argument :: rest =>
    if argument = "--help" ∨ argument = "-h" then .help
    else if argument = "--version" ∨ argument = "-V" then .version
    else if argument = "--tree-walk" then ofArgumentsFrom { o with strategy := .tree } rest
    else if argument = "--disassemble" then ofArgumentsFrom { o with listings := true } rest
    else if argument = "-e" then
      match rest with
      | [] => .misuse "-e requires an expression argument"
      | text :: rest =>
        if o.task = .dialogue then ofArgumentsFrom { o with task := .line text } rest
        else secondTask
    else if argument.startsWith "-" ∧ argument ≠ "-" then
      .misuse ("Unknown option: " ++ argument)
    else if o.task = .dialogue then ofArgumentsFrom { o with task := .file argument } rest
    else secondTask

/-- **What the arguments ask for.** -/
def ofArguments (arguments : List String) : Request := ofArgumentsFrom .default arguments

end Request

end Abacus
