import ContentSync.Schedule.Cron
import ContentSync.Server.State
import ContentSync.Settings.CommandLine

/-!
# The command line

Reads the settings of the server from its command line, its environment and its configuration file,
checks them together with the schedule, and prints what the server works with. Exit codes: 0 when
the server can start, 2 for a command line that cannot be read, 1 for any other error.

* `main` — the program.
-/

set_option autoImplicit false

namespace ContentSync.CommandLine

/-- What stands under a path; whatever is there but holds no text counts as a directory. -/
def nodeAt? (path : String) : IO (Option FileNode) := do
  try
    return some (.file (← IO.FS.readFile path))
  catch
    | .noFileOrDirectory .. => return none
    | _ => return some (.directory [])

/-- The variables of the environment that name settings. -/
def environment : IO (List (String × String)) := do
  let found ← Setting.all.mapM fun s => do
    return (← IO.getEnv s.environmentName).map fun value => (s.environmentName, value)
  return found.filterMap id

/-- The file system as far as the settings depend on it. -/
def filesFor (given : Layer) : IO FileSystem := do
  let path := ServerSettings.filePath given
  let written : WrittenPath := ⟨[], path⟩
  match ← nodeAt? path with
  | none => return .empty
  | some node =>
    let (_, made) := FileSystem.empty.makeDirectories written.start written.parent
    return match made.place written with
      | .ok place => made.put place node
      | .error _ => made

/-- What the server works with, a line for each part. -/
def describe (s : ServerSettings) : List String :=
  ["content service: " ++ s.service.text,
    "cache: " ++ (match s.cacheBackend with
      | .redis => s.cache.address
      | .memory => "in memory"),
    "versions: " ++ (match s.versionBackend with
      | .redis => s.cache.address
      | .file path => path
      | .memory => "in memory"),
    "segments: " ++ s.policy.segmentPolicy.code,
    "schedule: " ++ s.schedule,
    "pages: 0.0.0.0:" ++ toString s.portNumber]

/-- An error with the causes behind it. -/
def report (messages : List String) : IO UInt32 := do
  for message in messages do
    IO.eprintln message
  return 1

/-- Whether the server can start with some settings; prints what it works with. -/
def start (s : ServerSettings) : IO UInt32 := do
  if !Schedule.valid s.schedule then report [Schedule.complaint s.schedule]
  else
    match ServerState.build s fun _ => .error (.disconnected "not started") with
    | .error e => report [e.message, e.cause.message]
    | .ok _ => do
      for line in describe s do
        IO.println line
      return 0

end ContentSync.CommandLine

open ContentSync in
/-- The program. -/
def main (words : List String) : IO UInt32 := do
  match CommandLine.layer words (← CommandLine.environment) with
  | .error u => do
    IO.eprintln u.label
    return 2
  | .ok given =>
    match ServerSettings.load (← CommandLine.filesFor given) given with
    | .error e =>
      CommandLine.report ("Failed to load configuration" :: e.message
        :: (e.cause.map Failure.message).toList)
    | .ok s => CommandLine.start s
