import ContentSync.Logs.Filter
import ContentSync.Store.FileSystem

/-!
# Log files

A log file is named after its application and its day. Only the newest files are kept; names are in
the order of time because dates are.

* `Logs.prune` — deletes all but the newest files of an application;
* `Logs.prepare` — makes the directory, prunes it and reads the filter.
-/

set_option autoImplicit false

namespace ContentSync.Logs

/-- How many files are kept beside the active one. -/
def keptFiles : Nat := 7

/-- Whether a name starts with the name of an application and a point. -/
def belongsTo (app name : String) : Bool := (app ++ ".").toList.isPrefixOf name.toList

/-- The files of an application in a directory, the latest name first. -/
def filesOf (fs : FileSystem) (directory : FilePath) (app : String) : List String :=
  let isFile (name : String) : Bool :=
    match fs.node? (directory ++ [name]) with
    | some (.file _) => true
    | _ => false
  ((fs.names directory).filter fun name => isFile name && belongsTo app name).reverse

/-- Deletes all but the newest files of an application and tells how many those were. -/
def prune (fs : FileSystem) (directory : FilePath) (app : String) (keep : Nat) :
    Except FileError (Nat × FileSystem) :=
  match fs.walk [] directory with
  | .error e => .error e
  | .ok _ =>
    let old := (filesOf fs directory app).drop keep
    .ok (old.length, old.foldl (fun left name => left.remove (directory ++ [name])) fs)

/-- Why logging cannot be set up. -/
inductive Fault where
  | files (e : FileError)
  | filter (level : String)
  deriving DecidableEq, Repr

/-- The message of a fault, for a directory as it is shown. -/
def Fault.message (directory : String) : Fault → String
  | files e => "I/O error preparing " ++ directory ++ ": " ++ e.message
  | filter level => "Invalid log filter '" ++ level ++ "'"

/-- Makes the directory and prunes it, and then reads the filter. Gives the files as they are
afterwards, whatever comes of it. -/
def prepare (fs : FileSystem) (directory : FilePath) (app level : String) :
    Except Fault (List Directive) × FileSystem :=
  match fs.makeDirectories [] directory with
  | (.error e, made) => (.error (.files e), made)
  | (.ok (), made) =>
    match prune made directory app keptFiles with
    | .error e => (.error (.files e), made)
    | .ok (_, left) =>
      match Directive.parseAll? level with
      | none => (.error (.filter level), left)
      | some directives => (.ok directives, left)

end ContentSync.Logs
