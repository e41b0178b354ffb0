import ContentSync.Text.Parts

/-!
# Paths as they are written

A path is a text with names between slashes. It starts at the root if its first character is a
slash, and otherwise at some directory. Empty names and single dots lead nowhere, two dots lead one
directory up; a path that ends in a slash or in dots can only mean a directory.

* `WrittenPath.steps` — the names and double dots in a path;
* `WrittenPath.parent` — the steps to the directory beside whose entries the path ends;
* `WrittenPath.fault?` — why no path with such a text is looked up at all.
-/

set_option autoImplicit false

namespace ContentSync

/-- Why an operation on a file fails. -/
inductive FileError where
  | notFound
  | notADirectory
  | isADirectory
  | alreadyExists
  | noSpace
  | nameTooLong
  | nulInName
  | busy
  deriving DecidableEq, Repr

namespace FileError

def message : FileError → String
  | notFound => "No such file or directory (os error 2)"
  | notADirectory => "Not a directory (os error 20)"
  | isADirectory => "Is a directory (os error 21)"
  | alreadyExists => "File exists (os error 17)"
  | noSpace => "No space left on device (os error 28)"
  | nameTooLong => "File name too long (os error 36)"
  | nulInName => "file name contained an unexpected NUL byte"
  | busy => "Device or resource busy (os error 16)"

/-- The name of the kind of an error. -/
def label : FileError → String
  | notFound => "NotFound"
  | notADirectory => "NotADirectory"
  | isADirectory => "IsADirectory"
  | alreadyExists => "AlreadyExists"
  | noSpace => "StorageFull"
  | nameTooLong => "InvalidFilename"
  | nulInName => "InvalidInput"
  | busy => "ResourceBusy"

end FileError

/-- The names on the way from the root. -/
abbrev FilePath := List String

/-- A path as it is written, and the directory at which it starts unless it starts at the root. -/
structure WrittenPath where
  base : FilePath
  text : String
  deriving DecidableEq, Repr

/-- How a path ends. -/
inductive PathEnding where
  | name
  | nameAndSlash
  | dots
  deriving DecidableEq, Repr

namespace WrittenPath

/-- The step that leads one directory up. -/
def up : String := ".."

/-- The most bytes in a name. -/
def nameLimit : Nat := 255

/-- A path has fewer bytes than this. -/
def textLimit : Nat := 4096

/-- The parts of a path between slashes, without the empty ones. -/
def parts (p : WrittenPath) : List String :=
  ((Text.parts (· == '/') p.text.toList).map String.ofList).filter (· ≠ "")

def steps (p : WrittenPath) : List String := p.parts.filter (· ≠ ".")

/-- The steps to the directory in which the last step is made. -/
def parent (p : WrittenPath) : List String := p.steps.dropLast

/-- The directory at which the first step is made. -/
def start (p : WrittenPath) : FilePath := if p.text.toList.head? = some '/' then [] else p.base

def ending (p : WrittenPath) : PathEnding :=
  match p.parts.getLast? with
  | none => .dots
  | some last =>
    if last = "." ∨ last = up then .dots
    else if p.text.toList.getLast? = some '/' then .nameAndSlash
    else .name

/-- A path with a NUL, an empty path and one that is too long are not looked up. -/
def fault? (p : WrittenPath) : Option FileError :=
  if p.text.toList.contains '\x00' then some .nulInName
  else if p.text.isEmpty then some .notFound
  else if textLimit ≤ p.text.utf8ByteSize then some .nameTooLong
  else none

end WrittenPath

end ContentSync
