import ContentSync.Engine.Lookup
import ContentSync.Proofs.Engine.Path

/-!
# Paths through lookups

A lookup makes at most three calls, each depending on how the ones before it were answered.

* `LookupAsks` / `asks_lookup_iff` — the calls that a lookup makes, and what was answered before;
* `LookupEnds` / `ends_lookup_iff` — the results of a lookup, and everything that was answered;
* `asks_lookup` — a lookup uses the key of its player, and no other one.
-/

set_option autoImplicit false

namespace ContentSync.Engine

open Program

/-- The cache has answered whether it has the record of a player. -/
def readAnswer (code : AllyCode) (found : Except Failure (Option Json)) : Exchange :=
  ⟨.wait (.read (.ofPlayer code)), found⟩

/-- The content service has answered with the record of a player, or with a failure. -/
def playerAnswer (code : AllyCode) (answer : Except Failure Json) : Exchange :=
  ⟨.wait (.player code), answer⟩

/-- The cache has answered whether it has stored the record of a player. -/
def storeAnswer (code : AllyCode) (record : Json) (lifetime : Duration)
    (stored : Except Failure Unit) : Exchange :=
  ⟨.wait (.write (.ofPlayer code) record lifetime), stored⟩

/-- The cache has no record, or has failed. -/
def NotFound (found : Except Failure (Option Json)) : Prop := ∀ record, found ≠ .ok (some record)

variable {lifetime : Duration} {raw : String} {code : AllyCode} {h : List Exchange} {r : Request}
  {result : Except Failure (Json × Source)}

/-- The calls of a lookup of a well-formed code. -/
inductive LookupAsks (lifetime : Duration) (code : AllyCode) : List Exchange → Request → Prop
  | read : LookupAsks lifetime code [] (.wait (.read (.ofPlayer code)))
  | player {found : Except Failure (Option Json)} (absent : NotFound found) :
    LookupAsks lifetime code [readAnswer code found] (.wait (.player code))
  | store {found : Except Failure (Option Json)} {record : Json} (absent : NotFound found) :
    LookupAsks lifetime code [readAnswer code found, playerAnswer code (.ok record)]
      (.wait (.write (.ofPlayer code) record lifetime))

/-- The results of a lookup of a well-formed code. -/
inductive LookupEnds (lifetime : Duration) (code : AllyCode) :
    List Exchange → Except Failure (Json × Source) → Prop
  | hit {record : Json} :
    LookupEnds lifetime code [readAnswer code (.ok (some record))] (.ok (record, .cache))
  | failed {found : Except Failure (Option Json)} {f : Failure} (absent : NotFound found) :
    LookupEnds lifetime code [readAnswer code found, playerAnswer code (.error f)] (.error f)
  | missed {found : Except Failure (Option Json)} {record : Json} {stored : Except Failure Unit}
    (absent : NotFound found) :
    LookupEnds lifetime code [readAnswer code found, playerAnswer code (.ok record),
      storeAnswer code record lifetime stored] (.ok (record, .service))

/-- **The calls of a lookup**: the cache is asked first, then the service, and then the cache is
given the record. A code that is not well-formed leads to no call. -/
theorem asks_lookup_iff : (lookup lifetime raw).Asks h r ↔
    ∃ code, AllyCode.parse? raw = some code ∧ LookupAsks lifetime code h r := by
  unfold lookup
  cases AllyCode.parse? raw with
  | none => simp
  | some code =>
    simp only [Option.some.injEq, exists_eq_left']
    constructor
    · intro hr
      unfold lookupCode at hr
      simp only [asks_bind, asks_request, ends_request] at hr
      obtain ⟨rfl, rfl⟩ | ⟨_, _, found, rfl, rfl, hr⟩ := hr
      · exact .read
      split at hr
      · simp at hr
      · rename_i absent
        simp only [asks_bind, asks_request, ends_request] at hr
        obtain ⟨rfl, rfl⟩ | ⟨_, _, answer, rfl, rfl, hr⟩ := hr
        · exact .player fun record heq => absent record heq
        cases answer with
        | error f => simp at hr
        | ok record =>
          simp only [asks_bind, asks_request, asks_pure, and_false, exists_false, or_false] at hr
          obtain ⟨rfl, rfl⟩ := hr
          exact .store fun record heq => absent record heq
    · intro hr
      cases hr with
      | read => exact ⟨_, .here _⟩
      | @player found absent =>
        obtain f | _ | record := found
        · exact ⟨_, .along _ (.here _)⟩
        · exact ⟨_, .along _ (.here _)⟩
        · exact absurd rfl (absent record)
      | @store found record absent =>
        obtain f | _ | record := found
        · exact ⟨_, .along _ (.along _ (.here _))⟩
        · exact ⟨_, .along _ (.along _ (.here _))⟩
        · exact absurd rfl (absent _)

/-- **The results of a lookup**, and everything that was answered to it. -/
theorem ends_lookup_iff : (lookup lifetime raw).Ends h result ↔
    (AllyCode.parse? raw = none ∧ h = [] ∧ result = .error (.allyCode raw)) ∨
      ∃ code, AllyCode.parse? raw = some code ∧ LookupEnds lifetime code h result := by
  unfold lookup
  cases AllyCode.parse? raw with
  | none => simp
  | some code =>
    simp only [reduceCtorEq, false_and, false_or, Option.some.injEq, exists_eq_left']
    constructor
    · intro hr
      unfold lookupCode at hr
      simp only [ends_bind, ends_request] at hr
      obtain ⟨_, _, found, rfl, rfl, hr⟩ := hr
      split at hr
      · obtain ⟨rfl, rfl⟩ := ends_pure.1 hr
        exact .hit
      · rename_i absent
        simp only [ends_bind, ends_request] at hr
        obtain ⟨_, _, answer, rfl, rfl, hr⟩ := hr
        cases answer with
        | error f =>
          obtain ⟨rfl, rfl⟩ := ends_pure.1 hr
          exact .failed fun record heq => absent record heq
        | ok record =>
          simp only [ends_bind, ends_request, ends_pure] at hr
          obtain ⟨_, _, stored, rfl, rfl, rfl, rfl⟩ := hr
          exact .missed fun record heq => absent record heq
    · intro hr
      cases hr with
      | hit => exact .along _ (.here _)
      | @failed found f absent =>
        obtain f | _ | record := found
        · exact .along _ (.along _ (.here _))
        · exact .along _ (.along _ (.here _))
        · exact absurd rfl (absent record)
      | @missed found record stored absent =>
        obtain f | _ | record := found
        · exact .along _ (.along _ (.along _ (.here _)))
        · exact .along _ (.along _ (.along _ (.here _)))
        · exact absurd rfl (absent _)

/-- A lookup uses the key of its player, and no other one. -/
theorem asks_lookup (hr : (lookup lifetime raw).Asks h r) :
    ∃ code, r = .wait (.read (.ofPlayer code)) ∨ r = .wait (.player code) ∨
      ∃ record, r = .wait (.write (.ofPlayer code) record lifetime) := by
  obtain ⟨code, -, hasks⟩ := asks_lookup_iff.1 hr
  cases hasks with
  | read => exact ⟨code, .inl rfl⟩
  | player => exact ⟨code, .inr (.inl rfl)⟩
  | store => exact ⟨code, .inr (.inr ⟨_, rfl⟩)⟩

end ContentSync.Engine
