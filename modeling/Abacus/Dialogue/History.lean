import Abacus.Text.Blank

/-!
# History

The lines a user has entered, and the file that keeps them from one dialogue to the next: one
entry a line, without a line feed after the last one.  Blank lines of a file are no entries.
-/

namespace Abacus.History

/-- The file's name; it stands in the user's own folder. -/
def fileName : String := ".reckon_history"

/-- The entries in a file. -/
def ofText (content : String) : List String :=
  (Text.lines content).filter fun line => !Text.isAllBlank line

/-- The file for entries. -/
def toText (entries : List String) : String := "\n".intercalate entries

/-- The entries in a file as it was read, if it was.  A file that is no text has none. -/
def ofFile (file : Option ByteArray) : List String :=
  match file.bind String.fromUTF8? with
  | some content => ofText content
  | none => []

/-- A number with spaces in front, at least four characters wide. -/
def number4 (n : Nat) : String :=
  let digits := Nat.toDigits 10 n
  String.ofList (List.replicate (4 - digits.length) ' ' ++ digits)

/-- Entries as a numbered list, counting from the given number on. -/
def numberedFrom (n : Nat) : List String → String
  | [] => ""
  | entry :: rest => number4 n ++ "  " ++ entry ++ "\n" ++ numberedFrom (n + 1) rest

end Abacus.History
