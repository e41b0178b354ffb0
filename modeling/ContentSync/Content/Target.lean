import ContentSync.Content.AllyCode
import ContentSync.Content.Segment
import ContentSync.Content.Version

/-!
# Targets and cache keys

* `FetchTarget` — what one fetch brings, a segment of game data or the localization bundle;
* `FetchTarget.key` — where the payload of a target is cached for a version;
* `CacheKey.ofPlayer` — where the record of a player is cached.
-/

set_option autoImplicit false

namespace ContentSync

/-- The key of a cache entry. -/
structure CacheKey where
  text : String
  deriving DecidableEq, Repr

namespace CacheKey

def ofPlayer (a : AllyCode) : CacheKey := ⟨"player:" ++ a.text⟩

/-- The segment's code follows the version, so the segments of one version lie side by side. -/
def ofGameData (v : Version) (s : Segment) : CacheKey :=
  ⟨"gamedata:" ++ v.text ++ ":" ++ toString s.code⟩

def ofLocalization (v : Version) : CacheKey := ⟨"localization:" ++ v.text⟩

end CacheKey

/-- One unit of fetching. -/
inductive FetchTarget where
  | gameData (segment : Segment)
  | localization
  deriving DecidableEq, Repr

namespace FetchTarget

def kind : FetchTarget → DataKind
  | gameData _ => .gameData
  | localization => .localization

/-- The key of a target's payload for a version. -/
def key (t : FetchTarget) (v : Version) : CacheKey :=
  match t with
  | gameData s => .ofGameData v s
  | localization => .ofLocalization v

def label : FetchTarget → String
  | gameData s => s.label
  | localization => "LOCALIZATION"

/-- The place in the processing order. -/
def rank : FetchTarget → Nat
  | gameData s => s.code
  | localization => 5

/-- Every target, in processing order. -/
def all : List FetchTarget := Segment.all.map gameData ++ [localization]

def ofLabel? (label : String) : Option FetchTarget := all.find? fun t => t.label = label

/-- Targets in processing order. -/
def sort (targets : List FetchTarget) : List FetchTarget :=
  targets.mergeSort fun a b => a.rank ≤ b.rank

def json : FetchTarget → Json
  | gameData s => .object [("game_data", s.json)]
  | localization => .string "localization"

def decode? (w : Written) : Option FetchTarget := do
  let (name, carried) ← w.variant?
  match name, carried with
  | "game_data", some w => w |> Segment.decode? |>.map gameData
  | "localization", none => pure localization
  | "localization", some w => if w.isNull then pure localization else none
  | _, _ => none

theorem mem_all (t : FetchTarget) : t ∈ all := by
  cases t with
  | gameData s => cases s <;> decide
  | localization => decide

theorem rank_injective {a b : FetchTarget} (h : a.rank = b.rank) : a = b := by
  cases a with
  | gameData s => cases b with
    | gameData t => cases s <;> cases t <;> first | rfl | cases h
    | localization => cases s <;> cases h
  | localization => cases b with
    | gameData t => cases t <;> cases h
    | localization => rfl

end FetchTarget

end ContentSync
