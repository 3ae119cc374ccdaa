import Abacus.Bindings
import Abacus.Text.Blank

/-!
# Environment files

A file of lines `NAME=VALUE` that set variables of the process before anything else is done.
Blank lines and lines that start with `#` are skipped, and so are lines without an equals sign or
without a name.  Quotes around a value do not belong to it.

Variables that are already set keep their values, so of two lines for one name the first counts;
unless the file is to override them, in which case the last counts.

## Main definitions

* `EnvFile.readLine?`: what a line sets;
* `EnvFile.load`: the variables after a file, and how many it set.

## Main results

* `EnvFile.readLine?_eq_some_iff`: when a line sets something.
-/

namespace Abacus.EnvFile

/-- A value without the blanks, then the double quotes, then the single quotes at its ends. -/
def unquote (cs : List Char) : List Char :=
  Text.strip (· == '\'') (Text.strip (· == '"') (Text.strip Text.isBlank cs))

/-- **What a line sets**: a name and its value. -/
def readLine? (line : String) : Option (String × String) :=
  match Text.strip Text.isBlank line.toList with
  | '#' :: _ => none
  | cs =>
    match Text.cutAt? '=' cs with
    | none => none
    | some (name, value) =>
      match Text.strip Text.isBlank name with
      | [] => none
      | name => some (String.ofList name, String.ofList (unquote value))

/-- **When a line sets something**: it is no remark, it has an equals sign, and what stands before
the first one is not blank. -/
theorem readLine?_eq_some_iff {line : String} {entry : String × String} :
    readLine? line = some entry ↔
      ∃ name value, (Text.strip Text.isBlank line.toList).head? ≠ some '#' ∧
        Text.cutAt? '=' (Text.strip Text.isBlank line.toList) = some (name, value) ∧
        Text.strip Text.isBlank name ≠ [] ∧
        entry = (String.ofList (Text.strip Text.isBlank name), String.ofList (unquote value)) := by
  unfold readLine?
  constructor
  · intro h
    split at h
    · cases h
    · next hremark =>
      split at h
      · cases h
      · next name value hcut =>
        split at h
        · cases h
        · next hname =>
          refine ⟨name, value, fun hhead => ?_, hcut, hname, (Option.some.inj h).symm⟩
          obtain ⟨rest, hrest⟩ := List.head?_eq_some_iff.mp hhead
          exact hremark rest hrest
  · rintro ⟨name, value, hremark, hcut, hname, rfl⟩
    split
    · next hline => exact absurd (congrArg List.head? hline) hremark
    · rw [hcut]
      dsimp only
      split
      · contradiction
      · rfl

/-- What the lines of a file set, in order. -/
def assignments (content : String) : List (String × String) :=
  (Text.lines content).filterMap readLine?

/-- Variables of the process. -/
abbrev Variables := Bindings String

/-- Sets one variable and counts it, unless it is set already and is not to be overridden. -/
def assign (override : Bool) (state : Nat × Variables) (entry : String × String) :
    Nat × Variables :=
  if override || !state.2.contains entry.1 then (state.1 + 1, state.2.insert entry.1 entry.2)
  else state

/-- **The variables after a file**, and how many times it set one. -/
def load (override : Bool) (content : String) (vars : Variables) : Nat × Variables :=
  (assignments content).foldl (assign override) (0, vars)

/-- The text of a file as it was read, if it was.  A file that is no text sets nothing. -/
def contentOf (file : Option ByteArray) : String :=
  (file.bind String.fromUTF8?).getD ""

/-- The variables after a file as it was read, and how many times it set one. -/
def loadFile (override : Bool) (file : Option ByteArray) (vars : Variables) :
    Nat × Variables :=
  load override (contentOf file) vars

/-- No variable of a process has the character NUL in its name or in its value. -/
def hasNul (entry : String × String) : Bool :=
  entry.1.toList.contains '\x00' || entry.2.toList.contains '\x00'

/-- Some of the lines would set a variable that no process can have. -/
def refuses (override : Bool) : Variables → List (String × String) → Bool
  | _, [] => false
  | vars, entry :: rest =>
    ((override || !vars.contains entry.1) && hasNul entry) ||
      refuses override (assign override (0, vars) entry).2 rest

/-- A file as it was read would set a variable that no process can have. -/
def isRefused (override : Bool) (file : Option ByteArray) (vars : Variables) : Bool :=
  refuses override vars (assignments (contentOf file))

end Abacus.EnvFile
