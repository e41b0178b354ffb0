import ContentSync.Engine.Clockwork
import ContentSync.Store.MemoryCache

/-!
# Scripted collaborators

In a rehearsal the content service, the cache and the version store do what a script tells them. A
call to the service gives way before it starts and takes a millisecond unless the script says
otherwise; a call to a store takes no time.

* `Backstage` — everything the collaborators know, and a log of the calls;
* `collaborators` — how they answer.
-/

set_option autoImplicit false

namespace ContentSync.Rehearsal

open Engine

/-- Where calls to the content service go. -/
inductive Origin where
  | metadata
  | target (t : FetchTarget)
  | player
  deriving DecidableEq, Repr

/-- A scripted answer: the usual one, or a failure, after the usual time or another. -/
structure Scripted where
  failure : Option Failure
  delay : Option Duration

/-- What is scripted for an origin. -/
structure Script where
  delay : Duration
  always : Option Failure
  queue : List Scripted

def Script.usual : Script := ⟨.milli 1, none, []⟩

/-- The course of the next call, and the script after it. -/
def Script.next (s : Script) : Course × Script :=
  match s.always, s.queue with
  | some f, _ => (⟨some s.delay.milliseconds, some f⟩, s)
  | none, [] => (⟨some s.delay.milliseconds, none⟩, s)
  | none, a :: rest =>
    (⟨some (a.delay.getD s.delay).milliseconds, a.failure⟩, { s with queue := rest })

/-- A call in the log. -/
structure LogEntry where
  time : Nat
  call : Call
  phase : Phase

/-- Everything the collaborators know. -/
structure Backstage where
  metadata : Option Metadata
  releases : List (Version × List (String × Json))
  raw : List ((FetchTarget × Version) × Json)
  players : List (String × Json)
  scripts : List (Origin × Script)
  faults : List (String × Scripted)
  cache : MemoryCache
  versions : StoredVersions
  /-- Every key that has ever been written. -/
  everCached : List CacheKey
  fetchesUnderWay : Nat
  peak : Nat
  /-- The cache has no way of its own to tell whether an entry exists, so the entry is read. -/
  plainCache : Bool
  /-- The calls, the latest first. -/
  log : List LogEntry

namespace Backstage

def create (stored : StoredVersions) (plainCache : Bool) : Backstage :=
  ⟨none, [], [], [], [], [], .empty, stored, [], 0, 0, plainCache, []⟩

/-- The clock of the cache. -/
def instant (now : Nat) : Instant := now * 1000000

/-- Puts a value under a key in a list of pairs. -/
def assign {α β : Type} [BEq α] (key : α) (value : β) (l : List (α × β)) : List (α × β) :=
  (key, value) :: l.filter fun p => !(p.1 == key)

def unassign {α β : Type} [BEq α] (key : α) (l : List (α × β)) : List (α × β) :=
  l.filter fun p => !(p.1 == key)

def script (b : Backstage) (o : Origin) : Script := (List.lookup o b.scripts).getD .usual

def setScript (b : Backstage) (o : Origin) (s : Script) : Backstage :=
  { b with scripts := assign o s b.scripts }

/-- The payload of a segment of a release: every collection, empty unless the segment owns it. -/
def segmentPayload (release : List (String × Json)) (s : Segment) : Json :=
  .ofMembers (Segment.full.owned.map fun collection =>
    (collection, if s.owns collection then (Json.lookup collection release).getD (.array [])
      else .array []))

/-- The payload of a target. -/
def payload (b : Backstage) (t : FetchTarget) (v : Version) : Except Failure Json :=
  match List.lookup (t, v) b.raw with
  | some payload => .ok payload
  | none =>
    match t with
    | .localization => .error (.status 404 ("unknown bundle " ++ v.text))
    | .gameData s =>
      match List.lookup v b.releases with
      | some release => .ok (segmentPayload release s)
      | none => .error (.status 404 ("unknown version " ++ v.text))

/-- Stores a payload. -/
def store (b : Backstage) (now : Nat) (k : CacheKey) (payload : Json) (lifetime : Duration) :
    Backstage :=
  { b with
    cache := b.cache.write (instant now) k payload lifetime
    everCached := if b.everCached.contains k then b.everCached else k :: b.everCached }

/-- Where a call to the content service goes; calls to the stores go nowhere. -/
def origin? : Call → Option Origin
  | .metadata => some .metadata
  | .fetch t _ _ => some (.target t)
  | .player _ => some .player
  | _ => none

/-- The call that a store sees. -/
def seen (b : Backstage) : Call → Call
  | .exist k => if b.plainCache then .read k else .exist k
  | c => c

/-- The method and the key of a call to a store. -/
def method : Call → String × String
  | .versions => ("get", "versions")
  | .commit k _ => ("commit", k.label)
  | .read k => ("read", k.text)
  | .exist k => ("exists", k.text)
  | .write k _ _ => ("write", k.text)
  | .invalidate k => ("invalidate", k.text)
  | _ => ("", "")

/-- The fault of a call to a store. One for its key goes before one for all keys. -/
def fault? (b : Backstage) (c : Call) : Option Scripted :=
  let (name, key) := method (b.seen c)
  (List.lookup (name ++ " " ++ key) b.faults).or (List.lookup name b.faults)

def start (b : Backstage) (now : Nat) (phase : Phase) (c : Call) : Course × Backstage :=
  let b := { b with log := ⟨now, b.seen c, phase⟩ :: b.log }
  match origin? c with
  | none =>
    match b.fault? c with
    | some s => (⟨some ((s.delay.getD .zero).milliseconds), s.failure⟩, b)
    | none => (⟨some 0, none⟩, b)
  | some o =>
    let (course, script) := (b.script o).next
    let b := b.setScript o script
    match c with
    | .fetch .. =>
      let under := b.fetchesUnderWay + 1
      (course, { b with fetchesUnderWay := under, peak := max b.peak under })
    | _ => (course, b)

def finish (b : Backstage) : Call → Backstage
  | .fetch .. => { b with fetchesUnderWay := b.fetchesUnderWay - 1 }
  | _ => b

def answer (b : Backstage) (now : Nat) : (c : Call) → Except Failure c.Answer × Backstage
  | .metadata =>
    (match b.metadata with
      | some m => .ok m
      | none => .error (.status 503 "no metadata"), b)
  | .fetch t v _ => (b.payload t v, b)
  | .player code =>
    (match List.lookup code.text b.players with
      | some record => .ok record
      | none => .error (.status 404 "player not found"), b)
  | .versions => (.ok b.versions, b)
  | .commit k v => (.ok (), { b with versions := b.versions.set k v })
  | .read k =>
    let (found, cache) := b.cache.read (instant now) k
    (.ok found, { b with cache := cache })
  | .exist k =>
    if b.plainCache then
      let (found, cache) := b.cache.read (instant now) k
      (.ok found.isSome, { b with cache := cache })
    else (.ok (b.cache.contains (instant now) k), b)
  | .write k payload lifetime => (.ok (), b.store now k payload lifetime)
  | .invalidate k => (.ok (), { b with cache := b.cache.invalidate k })

end Backstage

/-- The scripted collaborators. -/
def collaborators : Collaborators Backstage where
  givesWay c := (Backstage.origin? c).isSome
  start := Backstage.start
  answer := Backstage.answer
  finish := Backstage.finish

/-- The log in order; neighbouring fetches of one time are in the order of their targets. -/
def sortFetches : List LogEntry → List LogEntry
  | [] => []
  | e :: rest =>
    let sorted := sortFetches rest
    insertFetch e sorted
where
  /-- Puts a fetch behind the fetches of the same time that come before it. -/
  insertFetch (e : LogEntry) : List LogEntry → List LogEntry
    | [] => [e]
    | next :: rest =>
      match e.call, next.call with
      | .fetch t _ _, .fetch u _ _ =>
        if e.time = next.time ∧ u.rank < t.rank then next :: insertFetch e rest
        else e :: next :: rest
      | _, _ => e :: next :: rest

end ContentSync.Rehearsal
