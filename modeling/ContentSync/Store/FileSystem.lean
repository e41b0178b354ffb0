import ContentSync.Store.WrittenPath

/-!
# Files

A file system is a tree of directories with files at its leaves. The root is the empty path and
always a directory.

* `FileSystem.read` — the text of a file, or why it cannot be read;
* `FileSystem.makeDirectories` — makes the directories on the way to a path;
* `FileSystem.replace` — moves a new file into the place of a path;
* `FileSystem.names` — what stands in a directory, in the order of the names.
-/

set_option autoImplicit false

namespace ContentSync

/-- What stands under a path: a text, or entries with names. -/
inductive FileNode where
  | file (text : String)
  | directory (entries : List (String × FileNode))
  deriving Repr

namespace FileNode

def isDirectory : FileNode → Bool
  | file _ => false
  | directory _ => true

/-- The entries of a directory; a file has none. -/
def entries : FileNode → List (String × FileNode)
  | file _ => []
  | directory es => es

/-- What stands under a path that starts at a node. -/
def at? : FileNode → FilePath → Option FileNode
  | n, [] => some n
  | n, name :: rest => (List.lookup name n.entries).bind fun inner => inner.at? rest

/-- A directory with one of its entries exchanged. -/
def withEntry (n : FileNode) (name : String) (inner : FileNode) : FileNode :=
  directory ((name, inner) :: n.entries.filter fun e => e.1 ≠ name)

/-- Puts a node under a path; the directories on the way come into being. -/
def put : FileNode → FilePath → FileNode → FileNode
  | _, [], new => new
  | n, name :: rest, new =>
    n.withEntry name (((List.lookup name n.entries).getD (directory [])).put rest new)

/-- Takes away what stands under a path. -/
def remove : FileNode → FilePath → FileNode
  | n, [] => n
  | n, [name] =>
    match n with
    | file text => file text
    | directory es => directory (es.filter fun e => e.1 ≠ name)
  | n, name :: rest =>
    match List.lookup name n.entries with
    | some inner => n.withEntry name (inner.remove rest)
    | none => n

end FileNode

/-- The directory at the root. -/
structure FileSystem where
  root : List (String × FileNode)

namespace FileSystem

def empty : FileSystem := ⟨[]⟩

def node? (fs : FileSystem) (path : FilePath) : Option FileNode :=
  (FileNode.directory fs.root).at? path

def put (fs : FileSystem) (path : FilePath) (node : FileNode) : FileSystem :=
  ⟨((FileNode.directory fs.root).put path node).entries⟩

def remove (fs : FileSystem) (path : FilePath) : FileSystem :=
  ⟨((FileNode.directory fs.root).remove path).entries⟩

/-- The directory to which a step leads. -/
def enter (fs : FileSystem) (here : FilePath) (step : String) : Except FileError FilePath :=
  if step = WrittenPath.up then .ok here.dropLast
  else if WrittenPath.nameLimit < step.utf8ByteSize then .error .nameTooLong
  else
    match fs.node? (here ++ [step]) with
    | some (.directory _) => .ok (here ++ [step])
    | some (.file _) => .error .notADirectory
    | none => .error .notFound

/-- The directory to which some steps lead. -/
def walk (fs : FileSystem) (here : FilePath) (steps : List String) : Except FileError FilePath :=
  steps.foldlM fs.enter here

/-- The place that a path means, whether or not anything stands there. -/
def place (fs : FileSystem) (p : WrittenPath) : Except FileError FilePath :=
  match p.fault?, p.ending with
  | some e, _ => .error e
  | none, .name => do
    let here ← fs.walk p.start p.parent
    let name := p.steps.getLast?.getD ""
    if WrittenPath.nameLimit < name.utf8ByteSize then .error .nameTooLong
    else .ok (here ++ [name])
  | none, _ => fs.walk p.start p.steps

/-- What stands under a path. -/
def find (fs : FileSystem) (p : WrittenPath) : Except FileError FileNode := do
  match fs.node? (← fs.place p) with
  | some n => .ok n
  | none => .error .notFound

/-- The text of a file. -/
def read (fs : FileSystem) (p : WrittenPath) : Except FileError String := do
  match ← fs.find p with
  | .file text => .ok text
  | .directory _ => .error .isADirectory

/-- Makes the directories of some steps that are not there yet. Those made before a failure
stay. -/
def makeDirectories (fs : FileSystem) (here : FilePath) :
    List String → Except FileError Unit × FileSystem
  | [] => (.ok (), fs)
  | step :: rest =>
    if step = WrittenPath.up then fs.makeDirectories here.dropLast rest
    else if WrittenPath.nameLimit < step.utf8ByteSize then (.error .nameTooLong, fs)
    else
      match fs.node? (here ++ [step]) with
      | some (.directory _) => fs.makeDirectories (here ++ [step]) rest
      | some (.file _) =>
        (.error (if rest.isEmpty then .alreadyExists else .notADirectory), fs)
      | none => (fs.put (here ++ [step]) (.directory [])).makeDirectories (here ++ [step]) rest

/-- Moves a new file to the place of a path, if its directory exists and it does not mean a
directory itself. -/
def replace (fs : FileSystem) (p : WrittenPath) (text : String) : Except FileError FileSystem := do
  match p.ending with
  | .name =>
    let place ← fs.place p
    match fs.node? place with
    | some (.directory _) => .error .isADirectory
    | _ => .ok (fs.put place (.file text))
  | .nameAndSlash =>
    let _ ← fs.walk p.start p.parent
    .error .notADirectory
  | .dots =>
    let _ ← fs.place p
    .error .busy

/-- Deletes the file under a path; without one, nothing changes. -/
def delete (fs : FileSystem) (p : WrittenPath) : FileSystem :=
  match fs.place p, fs.find p with
  | .ok place, .ok (.file _) => fs.remove place
  | _, _ => fs

/-- The names in a directory, sorted. -/
def names (fs : FileSystem) (directory : FilePath) : List String :=
  (((fs.node? directory).map FileNode.entries).getD [] |>.map (·.1)).mergeSort fun a b => a ≤ b

/-- The names beside what a path means, sorted. -/
def namesBeside (fs : FileSystem) (p : WrittenPath) : List String :=
  match fs.walk p.start p.parent with
  | .ok directory => fs.names directory
  | .error _ => []

end FileSystem

end ContentSync
