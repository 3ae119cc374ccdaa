import Abacus.Decimal.Layout
import Abacus.Program
import Abacus.Text.Quoted

/-!
# Dumps of programs

A program with all its tables on one line, for the log: instructions by name, numbers in the
diagnostic layout, names in quotes.
-/

namespace Abacus

/-- The name of an instruction in a dump. -/
def Instruction.dumpName : Instruction → String
  | num => "Num"
  | var => "Var"
  | operator .add => "Add"
  | operator .subtract => "Sub"
  | operator .multiply => "Mult"
  | operator .divide => "Div"
  | operator .modulo => "Mod"
  | operator .power => "Exp"
  | neg => "Neg"
  | call => "Func"

/-- A call site in a dump. -/
def CallSite.dump (site : CallSite) : String :=
  "FuncMeta \x7b name: " ++ Text.quoted site.name ++ ", arg_count: " ++ toString site.arguments ++
    " \x7d"

/-- Items between commas, in square brackets. -/
def bracketed (items : List String) : String := "[" ++ ", ".intercalate items ++ "]"

/-- **A program on one line.** -/
def Program.dump (p : Program) : String :=
  "Program \x7b opcodes: " ++ bracketed (p.instructions.map Instruction.dumpName) ++
    ", values: " ++ bracketed (p.tables.values.map Decimal.diagnostic) ++
    ", vars: " ++ bracketed (p.tables.names.map Text.quoted) ++
    ", funcs: " ++ bracketed (p.tables.calls.map CallSite.dump) ++ " \x7d"

end Abacus
