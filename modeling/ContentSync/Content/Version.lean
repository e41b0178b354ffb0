import ContentSync.Json.Decode

/-!
# Versions of content

The content service keeps two kinds of content, each under a version of its own.

* `Version` — an opaque token, compared for equality only;
* `StoredVersions` — what has been committed for each kind, nothing before the first commit;
* `Metadata` — what the content service advertises for each kind.
-/

set_option autoImplicit false

namespace ContentSync

/-- A version token. -/
structure Version where
  text : String
  deriving DecidableEq, Repr, Inhabited

/-- The two kinds of content. -/
inductive DataKind where
  | gameData
  | localization
  deriving DecidableEq, Repr

namespace DataKind

/-- Both kinds, in the order in which they are processed. -/
def all : List DataKind := [gameData, localization]

/-- The name of a kind in texts. -/
def label : DataKind → String
  | gameData => "game data"
  | localization => "localization"

/-- The name of a kind at the start of a line. -/
def heading : DataKind → String
  | gameData => "Game data"
  | localization => "Localization"

/-- The name of a kind in records. -/
def code : DataKind → String
  | gameData => "game_data"
  | localization => "localization"

def ofCode? (code : String) : Option DataKind := all.find? fun k => k.code = code

def json (k : DataKind) : Json := .string k.code

theorem mem_all (k : DataKind) : k ∈ all := by cases k <;> decide

theorem ofCode?_code (k : DataKind) : ofCode? k.code = some k := by cases k <;> decide

end DataKind

namespace Version

def json (v : Version) : Json := .string v.text

def decode? (w : Written) : Option Version := w.text?.map Version.mk

end Version

/-- The committed versions. -/
structure StoredVersions where
  gameData : Option Version
  localization : Option Version
  deriving DecidableEq, Repr

namespace StoredVersions

/-- Nothing has been committed. -/
def cold : StoredVersions := ⟨none, none⟩

def get (s : StoredVersions) : DataKind → Option Version
  | .gameData => s.gameData
  | .localization => s.localization

def set (s : StoredVersions) (k : DataKind) (v : Version) : StoredVersions :=
  match k with
  | .gameData => { s with gameData := some v }
  | .localization => { s with localization := some v }

theorem get_set_self (s : StoredVersions) (k : DataKind) (v : Version) :
    (s.set k v).get k = some v := by
  cases k <;> rfl

theorem get_set_of_ne (s : StoredVersions) {k l : DataKind} (h : l ≠ k) (v : Version) :
    (s.set k v).get l = s.get l := by
  cases k <;> cases l <;> first | rfl | exact absurd rfl h

/-- The members in the order in which they are written to a file. -/
def members (s : StoredVersions) : List (String × Json) :=
  [("gameData", Json.optional Version.json s.gameData),
    ("localization", Json.optional Version.json s.localization)]

def json (s : StoredVersions) : Json := .object s.members

def decode? (w : Written) : Option StoredVersions := do
  let fields ← w.fields? ["gameData", "localization"]
  let gameData ← fields.optional? "gameData" Version.decode?
  let localization ← fields.optional? "localization" Version.decode?
  pure ⟨gameData, localization⟩

end StoredVersions

/-- The advertised versions. -/
structure Metadata where
  gameData : Version
  localization : Version
  deriving DecidableEq, Repr

namespace Metadata

def latest (m : Metadata) : DataKind → Version
  | .gameData => m.gameData
  | .localization => m.localization

def json (m : Metadata) : Json :=
  .ofMembers [("latestGamedataVersion", m.gameData.json),
    ("latestLocalizationBundleVersion", m.localization.json)]

def decode? (w : Written) : Option Metadata := do
  let fields ← w.fields? ["latestGamedataVersion", "latestLocalizationBundleVersion"]
  let gameData ← fields.required? "latestGamedataVersion" Version.decode?
  let localization ← fields.required? "latestLocalizationBundleVersion" Version.decode?
  pure ⟨gameData, localization⟩

end Metadata

end ContentSync
