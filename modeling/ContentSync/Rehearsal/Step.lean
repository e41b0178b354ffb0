import ContentSync.Rehearsal.Backstage
import ContentSync.Server.Router

/-!
# Steps of a rehearsal

A rehearsal lets clients use the engine, the server and the dispatcher over scripted collaborators.
A client takes one step after another; steps may also be taken side by side.

* `Step` — what a client can do;
* `Shown` — what a step shows when it has ended.
-/

set_option autoImplicit false

namespace ContentSync.Rehearsal

open Engine

/-- A step of a client. -/
inductive Step where
  | advertise (metadata : Metadata)
  | publish (version : Version) (release : List (String × Json))
  | publishRaw (target : FetchTarget) (version : Version) (payload : Json)
  | playerRecord (code : String) (record : Json)
  | failNext (origin : Origin) (answers : List Scripted)
  | failAlways (origin : Origin) (failure : Failure)
  | heal (origin : Origin)
  | delay (origin : Origin) (length : Duration)
  /-- A fault of a method of a store, or its end. -/
  | fault (method : String) (key : Option String) (scripted : Option Scripted)
  | seed (key : CacheKey) (payload : Json) (lifetime : Duration)
  | seedRelease (version : Version) (release : List (String × Json))
  | evict (key : CacheKey)
  | peek (key : CacheKey)
  | sleep (length : Duration)
  | purge
  | shutdown
  | dropDispatcher
  /-- An epoch, cancelled some milliseconds after its start or not at all. -/
  | epoch (trigger : Trigger) (cancelAt : Option Nat)
  | triggered (trigger : Trigger)
  | player (code : String)
  /-- A request to the server, given up after some milliseconds or not at all. -/
  | http (method address : String) (giveUpAfter : Option Nat)
  | events
  | status
  /-- Steps that start some milliseconds after this one does. -/
  | side (steps : List (Nat × Step))

/-- What an epoch shows. -/
structure EpochView where
  epoch : Epoch
  stored : StoredVersions
  phase : Phase
  running : Bool

/-- What can be seen at a time. -/
structure StatusView where
  stored : StoredVersions
  everCached : List CacheKey
  cacheSize : Nat
  phase : Phase
  running : Bool
  peak : Nat
  last : Option Epoch

/-- What a step shows. -/
inductive Shown where
  | nothing
  | count (n : Nat)
  | payload (p : Option Json)
  | epoch (r : Except Failure EpochView)
  | last (e : Option Epoch)
  | player (r : Except Failure (Json × Source))
  | response (r : Response)
  | gaveUp
  | events (dispatched : Option Nat) (seen : List (List Event))
  | status (view : StatusView)
  | several (shown : List (Nat × Shown))

end ContentSync.Rehearsal
