import ContentSync.Content.Failure
import ContentSync.Content.Target
import ContentSync.Json.Printer
import ContentSync.Json.Written
import ContentSync.Time.Duration

/-!
# A key-value server

The cache and the committed versions may be kept by a key-value server, which executes one command
at a time and forgets a key some whole seconds after it was set.

* `Command` — what is sent, as `Command.words`;
* `Reply` — what comes back;
* `KeyValue.execute` — what a server does;
* `KeyValue.value?_set_self`, `KeyValue.value?_setExpiring_self` — what is there after a command;
* `RemoteCache`, `RemoteVersions` — the commands of each operation and the meaning of the replies.
-/

set_option autoImplicit false

namespace ContentSync

/-- A command to the server. -/
inductive Command where
  | setExpiring (key : String) (seconds : Nat) (value : String)
  | set (key value : String)
  | get (key : String)
  | getAll (keys : List String)
  | delete (key : String)
  | exist (key : String)
  deriving DecidableEq, Repr

/-- The words of a command as they are sent. -/
def Command.words : Command → List String
  | setExpiring key seconds value => ["SETEX", key, toString seconds, value]
  | set key value => ["SET", key, value]
  | get key => ["GET", key]
  | getAll keys => "MGET" :: keys
  | delete key => ["DEL", key]
  | exist key => ["EXISTS", key]

/-- A reply of the server. -/
inductive Reply where
  | done
  | absent
  | text (value : String)
  | number (value : Int)
  | several (items : List Reply)
  | error (line : String)

/-- The values of a server, each with the second at which it is forgotten. -/
structure KeyValue where
  values : List (String × String × Option Nat)

namespace KeyValue

def empty : KeyValue := ⟨[]⟩

/-- The value of a key at a time, given in nanoseconds. -/
def value? (s : KeyValue) (now : Nat) (key : String) : Option String :=
  match List.lookup key s.values with
  | some (value, none) => some value
  | some (value, some forgottenAt) => if forgottenAt ≤ now then none else some value
  | none => none

def erase (s : KeyValue) (key : String) : KeyValue := ⟨s.values.filter fun v => v.1 ≠ key⟩

def replyOf : Option String → Reply
  | some value => .text value
  | none => .absent

/-- Executes a command. -/
def execute (s : KeyValue) (now : Nat) : Command → Reply × KeyValue
  | .setExpiring key seconds value =>
    let expiry := now + seconds * Duration.nanosecondsPerSecond
    (.done, ⟨(key, value, some expiry) :: (s.erase key).values⟩)
  | .set key value => (.done, ⟨(key, value, none) :: (s.erase key).values⟩)
  | .get key => (replyOf (s.value? now key), s)
  | .getAll keys => (.several (keys.map fun key => replyOf (s.value? now key)), s)
  | .delete key => (.number (if (s.value? now key).isSome then 1 else 0), s.erase key)
  | .exist key => (.number (if (s.value? now key).isSome then 1 else 0), s)

theorem value?_erase_self (s : KeyValue) (now : Nat) (key : String) :
    (s.erase key).value? now key = none := by
  have h : List.lookup key (s.values.filter fun v => v.1 ≠ key) = none := by
    induction s.values with
    | nil => rfl
    | cons v rest ih =>
      by_cases hv : v.1 = key
      · simpa [hv] using ih
      · simpa [hv, List.lookup_cons, Ne.symm hv] using ih
  unfold value? erase
  rw [h]

theorem value?_erase_of_ne (s : KeyValue) (now : Nat) {key other : String} (h : other ≠ key) :
    (s.erase key).value? now other = s.value? now other := by
  have hl : List.lookup other (s.values.filter fun v => v.1 ≠ key)
      = List.lookup other s.values := by
    induction s.values with
    | nil => rfl
    | cons v rest ih =>
      obtain ⟨k, x⟩ := v
      by_cases hk : k = key
      · subst hk
        simpa [List.lookup_cons, beq_false_of_ne h] using ih
      · rw [List.filter_cons_of_pos (by simpa using hk), List.lookup_cons, List.lookup_cons, ih]
  unfold value? erase
  rw [hl]

theorem value?_set_self (s : KeyValue) (at_ now : Nat) (key value : String) :
    (s.execute at_ (.set key value)).2.value? now key = some value := by
  simp [execute, value?]

theorem value?_set_of_ne (s : KeyValue) (at_ now : Nat) {key other : String} (h : other ≠ key)
    (value : String) :
    (s.execute at_ (.set key value)).2.value? now other = s.value? now other := by
  rw [← value?_erase_of_ne s now h]
  simp [execute, value?, List.lookup_cons, beq_false_of_ne h]

/-- A value that expires is there until its seconds are over. -/
theorem value?_setExpiring_self (s : KeyValue) (at_ now : Nat) (key value : String)
    (seconds : Nat) :
    (s.execute at_ (.setExpiring key seconds value)).2.value? now key
      = if at_ + seconds * Duration.nanosecondsPerSecond ≤ now then none else some value := by
  simp [execute, value?]

theorem value?_setExpiring_of_ne (s : KeyValue) (at_ now : Nat) {key other : String}
    (h : other ≠ key) (seconds : Nat) (value : String) :
    (s.execute at_ (.setExpiring key seconds value)).2.value? now other = s.value? now other := by
  rw [← value?_erase_of_ne s now h]
  simp [execute, value?, List.lookup_cons, beq_false_of_ne h]

end KeyValue

/-- The text of a reply; the acknowledgement of a command reads as a text too. -/
def Reply.text? : Reply → Option String
  | .done => some "OK"
  | .text value => some value
  | _ => none

/-- The truth value of a reply. -/
def Reply.flag? : Reply → Option Bool
  | .done => some true
  | .absent => some false
  | .number n => some (n != 0)
  | .text "1" => some true
  | .text "0" => some false
  | _ => none

namespace RemoteCache

/-- A lifetime in whole seconds, at least one. -/
def expiry (lifetime : Duration) : Nat := max lifetime.wholeSeconds 1

def write (k : CacheKey) (payload : Json) (lifetime : Duration) : Command :=
  .setExpiring k.text (expiry lifetime) payload.compact

def read (k : CacheKey) : Command := .get k.text

def invalidate (k : CacheKey) : Command := .delete k.text

def exist (k : CacheKey) : Command := .exist k.text

/-- Whether a write or a removal succeeded. -/
def accepted (name : String) (k : CacheKey) : Reply → Except Failure Unit
  | .error _ => .error (.cacheWrite (name ++ " " ++ k.text))
  | _ => .ok ()

/-- The payload in the reply to a read. -/
def payload? (k : CacheKey) : Reply → Except Failure (Option Json)
  | .absent => .ok none
  | reply =>
    match reply.text? with
    | none => .error (.cacheRead ("GET " ++ k.text))
    | some body =>
      match Json.parse? body with
      | some payload => .ok (some payload)
      | none => .error (.cacheRead ("decode " ++ k.text))

/-- The answer in the reply to a question for existence. -/
def found (k : CacheKey) (reply : Reply) : Except Failure Bool :=
  match reply.flag? with
  | some found => .ok found
  | none => .error (.cacheRead ("EXISTS " ++ k.text))

end RemoteCache

namespace RemoteVersions

/-- The key under which the version of a kind is kept. -/
def key : DataKind → String
  | .gameData => "meta:latestGamedataVersion"
  | .localization => "meta:latestLocalizationBundleVersion"

def get : Command := .getAll (DataKind.all.map key)

def commit (k : DataKind) (v : Version) : Command := .set (key k) v.text

/-- One version in a reply; `none` is a reply of the wrong form. -/
def version? : Reply → Option (Option Version)
  | .absent => some none
  | reply => reply.text?.map fun value => some ⟨value⟩

/-- The versions in the reply to a read. -/
def versions : Reply → Except Failure StoredVersions
  | .several [gameData, localization] =>
    match version? gameData, version? localization with
    | some g, some l => .ok ⟨g, l⟩
    | _, _ => .error (.persistence "MGET versions")
  | _ => .error (.persistence "MGET versions")

/-- Whether a commit succeeded. -/
def committed (k : DataKind) : Reply → Except Failure Unit
  | .error _ => .error (.persistence ("SET " ++ key k))
  | _ => .ok ()

end RemoteVersions

end ContentSync
