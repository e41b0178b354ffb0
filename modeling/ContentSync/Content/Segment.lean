import ContentSync.Json.Decode

/-!
# Segments of game data

Game data can be requested in full or in four parts. The answer to a request for a part still has
every collection, those of the other parts being empty, so each segment says which collections it
owns.

* `Segment.owned` — the collections of a segment; `full` owns those of all the parts;
* `Segment.all` — the segments in the order in which they are processed.
-/

set_option autoImplicit false

namespace ContentSync

/-- A requestable slice of game data. -/
inductive Segment where
  | full
  | equipment
  | abilities
  | units
  | campaigns
  deriving DecidableEq, Repr

namespace Segment

/-- Every segment, in processing order. -/
def all : List Segment := [full, equipment, abilities, units, campaigns]

/-- The parts that `full` is made of, in processing order. -/
def parts : List Segment := [equipment, abilities, units, campaigns]

/-- The number by which a segment is requested; also its place in the processing order. -/
def code : Segment → Nat
  | full => 0
  | equipment => 1
  | abilities => 2
  | units => 3
  | campaigns => 4

def label : Segment → String
  | full => "FULL"
  | equipment => "PARTIAL_1"
  | abilities => "PARTIAL_2"
  | units => "PARTIAL_3"
  | campaigns => "PARTIAL_4"

/-- Collections with equipment, materials, skills and cosmetics. -/
def equipmentCollections : List String :=
  ["category", "unlockAnnouncementDefinition", "skill", "equipment", "effectIconPriority",
    "battleEnvironments", "eventSampling", "targetingSet", "requirement", "powerUpBundle",
    "guildBanner", "battleTargetingRule", "persistentVfx", "material", "playerTitle",
    "playerPortrait", "timeZoneChangeConfig", "environmentCollection", "socialStatus"]

/-- Collections with abilities, raids and modifications. -/
def abilityCollections : List String :=
  ["ability", "statProgression", "challenge", "warDefinition", "statMod", "statModSet",
    "modRecommendation", "raidConfig", "mechanicDefinition"]

/-- Collections with units and their tiers. -/
def unitCollections : List String := ["relicTierDefinition", "units"]

/-- Collections with artifacts, campaigns and the remaining tables. -/
def campaignCollections : List String :=
  ["xpTable", "table", "recipe", "artifactDefinition", "artifactTierDefinition", "campaign",
    "datacronSet", "datacronTemplate", "datacronAffixTemplateSet", "conquestDefinition",
    "territoryBattleDefinition", "territoryWarDefinition", "galacticBundle", "scheduledEvent",
    "linkedStoreItem"]

/-- The collections that a segment owns, in order. -/
def owned : Segment → List String
  | full => equipmentCollections ++ abilityCollections ++ unitCollections ++ campaignCollections
  | equipment => equipmentCollections
  | abilities => abilityCollections
  | units => unitCollections
  | campaigns => campaignCollections

def owns (s : Segment) (collection : String) : Bool := s.owned.contains collection

def ofLabel? (label : String) : Option Segment := all.find? fun s => s.label = label

def json (s : Segment) : Json := .string s.label

def decode? (w : Written) : Option Segment := w.name?.bind ofLabel?

theorem mem_all (s : Segment) : s ∈ all := by cases s <;> decide

theorem ofLabel?_label (s : Segment) : ofLabel? s.label = some s := by cases s <;> decide

theorem owned_full : owned full = parts.flatMap owned := by rfl

end Segment

end ContentSync
