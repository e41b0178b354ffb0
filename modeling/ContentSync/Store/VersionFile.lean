import ContentSync.Content.Failure
import ContentSync.Content.Version
import ContentSync.Json.Printer
import ContentSync.Store.FileSystem

/-!
# Committed versions in a file

The committed versions stand in one file. A commit writes a new file beside it and moves that one
into its place, so the file holds either what it held before or all that was to be committed.

* `VersionFile.load` — the committed versions, none at all where there is no file;
* `VersionFile.commit` — the commit of one kind, and the files after it;
* `WriteStep` — the points at which a commit may fail.
-/

set_option autoImplicit false

namespace ContentSync

/-- The file with the committed versions: its path as messages show it and as it is looked up. -/
structure VersionFile where
  shown : String
  path : WrittenPath

/-- The steps in which a file is replaced. -/
inductive WriteStep where
  | makeDirectories
  | createTemporary
  | writeTemporary
  | flush
  | moveIntoPlace
  deriving DecidableEq, Repr

namespace VersionFile

/-- What the file holds for given versions. -/
def body (s : StoredVersions) : String := s.json.pretty

def decode? (text : String) : Option StoredVersions :=
  (Written.parse? text).bind StoredVersions.decode?

def load (f : VersionFile) (fs : FileSystem) : Except Failure StoredVersions :=
  match fs.read f.path with
  | .error .notFound => .ok .cold
  | .error e => .error (.persistence ("read " ++ f.shown ++ ": " ++ e.message))
  | .ok text =>
    match decode? text with
    | some s => .ok s
    | none => .error (.persistence ("corrupt " ++ f.shown))

/-- The failure of a step that the device refuses. -/
def refused (f : VersionFile) (e : FileError) : Failure :=
  .persistence ("write " ++ f.shown ++ ": " ++ e.message)

/-- Replaces the file. The device may refuse any step; the temporary file is deleted then. -/
def store (f : VersionFile) (device : WriteStep → Option FileError) (fs : FileSystem)
    (s : StoredVersions) : Except Failure Unit × FileSystem :=
  match device .makeDirectories with
  | some e => (.error (f.refused e), fs)
  | none =>
    match fs.makeDirectories f.path.start f.path.parent with
    | (.error e, made) => (.error (f.refused e), made)
    | (.ok (), made) =>
      let steps := [WriteStep.createTemporary, .writeTemporary, .flush, .moveIntoPlace]
      match steps.findSome? device with
      | some e => (.error (f.refused e), made)
      | none =>
        match made.replace f.path (body s) with
        | .error e => (.error (f.refused e), made)
        | .ok replaced => (.ok (), replaced)

/-- Commits the version of one kind and keeps that of the other. -/
def commit (f : VersionFile) (device : WriteStep → Option FileError) (fs : FileSystem)
    (k : DataKind) (v : Version) : Except Failure Unit × FileSystem :=
  match f.load fs with
  | .error e => (.error e, fs)
  | .ok s => f.store device fs (s.set k v)

/-- A device that never fails. -/
def soundDevice : WriteStep → Option FileError := fun _ => none

end VersionFile

end ContentSync
