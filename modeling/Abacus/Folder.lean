/-!
# Folders

The files a program finds from where it runs, by path.  Reading a path may fail, and the reason is
part of what the program reports.

## Main definitions

* `ReadFault`: why a file can not be read;
* `Folder`: what reading a path gives;
* `Folder.Place`: where a path can lead;
* `Folder.ofFiles`: a folder that holds exactly the given files.
-/

namespace Abacus

/-- Why a file can not be read. -/
inductive ReadFault where
  | missing
  | isFolder
  /-- A part of the path that should be a folder is a file. -/
  | notFolder
  | nameTooLong
  /-- The file is no UTF-8 text. -/
  | notText
  /-- A reason of the system's own. -/
  | other (reason : String)
deriving DecidableEq, Repr

/-- The fault in words. -/
def ReadFault.message : ReadFault → String
  | missing => "No such file or directory (os error 2)"
  | isFolder => "Is a directory (os error 21)"
  | notFolder => "Not a directory (os error 20)"
  | nameTooLong => "File name too long (os error 36)"
  | notText => "stream did not contain valid UTF-8"
  | other reason => reason

/-- What reading each path gives. -/
abbrev Folder := String → Except ReadFault ByteArray

namespace Folder

/-- The file at a path as text. -/
def readText (folder : Folder) (path : String) : Except ReadFault String := do
  let bytes ← folder path
  match String.fromUTF8? bytes with
  | some text => pure text
  | none => .error .notText

/-- The steps of a path, without those that stay where they are. -/
def steps (path : String) : List String :=
  (path.splitOn "/").filter fun step => step != "" && step != "."

/-- A path that ends in a slash, or in a slash and a dot, leads to a folder. -/
def asksForFolder (path : String) : Bool := path.endsWith "/" || path.endsWith "/."

/-- Where a path can lead: some steps down from the folder itself, some steps down from the root,
or somewhere above the folder. -/
inductive Place where
  | here (steps : List String)
  | root (steps : List String)
  | above
deriving DecidableEq, Repr

namespace Place

/-- Where a path starts. -/
def start (path : String) : Place := if path.startsWith "/" then root [] else here []

/-- One step up; the root is above itself. -/
def up : Place → Place
  | here [] => above
  | here steps => here steps.dropLast
  | root steps => root steps.dropLast
  | above => above

/-- One step down.  Of the folders above, only the way up is known. -/
def down? (place : Place) (step : String) : Option Place :=
  match place with
  | here steps => some (here (steps ++ [step]))
  | root steps => some (root (steps ++ [step]))
  | above => none

/-- Steps down lead from the first place to the second. -/
def leadsTo : Place → Place → Bool
  | here a, here b | root a, root b => a.isPrefixOf b && a != b
  | _, _ => false

end Place

/-- Files by their places; what has no content is a folder. -/
abbrev Files := List (Place × Option ByteArray)

namespace Files

/-- What is found at a place, if anything is. -/
def find? (files : Files) (place : Place) : Option (Option ByteArray) :=
  (List.find? (·.1 = place) files).map (·.2)

/-- There is a folder at the place: one of those where paths start, one with something in it, or
one given as such. -/
def hasFolder (files : Files) (place : Place) : Bool :=
  place = .here [] || place = .root [] || place = .above ||
    (files.find? place).any (·.isNone) || files.any fun file => place.leadsTo file.1

/-- Follows steps from a folder.  Only from folders does it go on. -/
def follow (files : Files) : Place → List String → Except ReadFault Place
  | place, [] => .ok place
  | place, step :: rest =>
    if step = ".." then files.follow place.up rest
    else if 255 < step.utf8ByteSize then .error .nameTooLong
    else
      match place.down? step with
      | none => .error .missing
      | some next =>
        if files.hasFolder next then files.follow next rest
        else if (files.find? next).isNone then .error .missing
        else if rest.isEmpty then .ok next
        else .error .notFolder

end Files

/-- A file by the place to which its path leads downwards; a path to a folder gives a folder. -/
def entry (path : String) (content : ByteArray) : Place × Option ByteArray :=
  (if path.startsWith "/" then .root (steps path) else .here (steps path),
    if asksForFolder path then none else some content)

/-- **A folder that holds the given files** and nothing else.  A later file replaces an earlier one
of the same path. -/
def ofFiles (files : List (String × ByteArray)) : Folder := fun path => do
  let files : Files := files.reverse.map fun file => entry file.1 file.2
  if path = "" then throw .missing
  else if 4095 < path.utf8ByteSize then throw .nameTooLong
  else
    let place ← files.follow (.start path) (steps path)
    match files.find? place with
    | some (some content) => if asksForFolder path then throw .notFolder else pure content
    | _ => throw .isFolder

end Folder

end Abacus
