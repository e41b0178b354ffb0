import ContentSync.Content.Target
import ContentSync.Time.Duration

/-!
# A cache in memory

Entries live for a given time after they are written. An expired entry is as good as absent; it is
dropped when somebody reads it or when the cache is purged.

* `MemoryCache.live?` — the payload that a reader sees at a time;
* `MemoryCache.live?_write_self`, `MemoryCache.live?_invalidate_self`, `MemoryCache.live?_read` — how
  the operations change what readers see.
-/

set_option autoImplicit false

namespace ContentSync

/-- A point on the clock of the cache, in nanoseconds. -/
abbrev Instant := Nat

/-- One stored payload. -/
structure CacheEntry where
  key : CacheKey
  payload : Json
  lifetime : Duration
  writtenAt : Instant

namespace CacheEntry

def expired (e : CacheEntry) (now : Instant) : Bool :=
  e.lifetime.nanoseconds ≤ now - e.writtenAt

end CacheEntry

/-- The entries of a cache, one for each key. -/
structure MemoryCache where
  entries : List CacheEntry

namespace MemoryCache

def empty : MemoryCache := ⟨[]⟩

def stored? (c : MemoryCache) (k : CacheKey) : Option CacheEntry :=
  c.entries.find? fun e => e.key = k

/-- The payload that a reader of a key sees. -/
def live? (c : MemoryCache) (now : Instant) (k : CacheKey) : Option Json :=
  match c.stored? k with
  | some e => if e.expired now then none else some e.payload
  | none => none

def erase (c : MemoryCache) (k : CacheKey) : MemoryCache :=
  ⟨c.entries.filter fun e => e.key ≠ k⟩

/-- Stores a payload in place of the one before. -/
def write (c : MemoryCache) (now : Instant) (k : CacheKey) (payload : Json) (lifetime : Duration) :
    MemoryCache :=
  ⟨⟨k, payload, lifetime, now⟩ :: (c.erase k).entries⟩

/-- The live payload of a key. An expired entry is dropped. -/
def read (c : MemoryCache) (now : Instant) (k : CacheKey) : Option Json × MemoryCache :=
  match c.stored? k with
  | some e => if e.expired now then (none, c.erase k) else (some e.payload, c)
  | none => (none, c)

/-- Whether a key has a live payload. -/
def contains (c : MemoryCache) (now : Instant) (k : CacheKey) : Bool := (c.live? now k).isSome

def invalidate (c : MemoryCache) (k : CacheKey) : MemoryCache := c.erase k

/-- How many entries are stored, expired ones included. -/
def size (c : MemoryCache) : Nat := c.entries.length

/-- Drops every expired entry and tells how many there were. -/
def purge (c : MemoryCache) (now : Instant) : Nat × MemoryCache :=
  let kept := c.entries.filter fun e => !e.expired now
  (c.entries.length - kept.length, ⟨kept⟩)

theorem stored?_erase_self (c : MemoryCache) (k : CacheKey) : (c.erase k).stored? k = none := by
  simp [erase, stored?, List.find?_filter]

theorem stored?_erase_of_ne (c : MemoryCache) {k l : CacheKey} (h : l ≠ k) :
    (c.erase k).stored? l = c.stored? l := by
  simp only [erase, stored?, List.find?_filter]
  congr 1
  funext e
  by_cases hl : e.key = l
  · simp [hl, h]
  · simp [hl]

theorem live?_erase_self (c : MemoryCache) (now : Instant) (k : CacheKey) :
    (c.erase k).live? now k = none := by
  simp [live?, stored?_erase_self]

theorem live?_erase_of_ne (c : MemoryCache) (now : Instant) {k l : CacheKey} (h : l ≠ k) :
    (c.erase k).live? now l = c.live? now l := by
  simp [live?, stored?_erase_of_ne c h]

theorem live?_write_self (c : MemoryCache) (at_ now : Instant) (k : CacheKey) (payload : Json)
    (lifetime : Duration) :
    (c.write at_ k payload lifetime).live? now k
      = if lifetime.nanoseconds ≤ now - at_ then none else some payload := by
  simp [live?, stored?, write, CacheEntry.expired]

theorem live?_write_of_ne (c : MemoryCache) (at_ now : Instant) {k l : CacheKey} (h : l ≠ k)
    (payload : Json) (lifetime : Duration) :
    (c.write at_ k payload lifetime).live? now l = c.live? now l := by
  rw [← live?_erase_of_ne c now h]
  simp [live?, stored?, write, Ne.symm h]

theorem live?_invalidate_self (c : MemoryCache) (now : Instant) (k : CacheKey) :
    (c.invalidate k).live? now k = none := live?_erase_self c now k

theorem live?_invalidate_of_ne (c : MemoryCache) (now : Instant) {k l : CacheKey} (h : l ≠ k) :
    (c.invalidate k).live? now l = c.live? now l := live?_erase_of_ne c now h

theorem read_fst (c : MemoryCache) (now : Instant) (k : CacheKey) :
    (c.read now k).1 = c.live? now k := by
  unfold read live?
  cases c.stored? k with
  | none => rfl
  | some e => by_cases h : e.expired now <;> simp [h]

/-- An entry that has expired stays so. -/
theorem expired_mono {e : CacheEntry} {now later : Instant} (h : e.expired now)
    (hle : now ≤ later) :
    e.expired later := by
  simp only [CacheEntry.expired, decide_eq_true_eq] at h ⊢
  exact Nat.le_trans h (Nat.sub_le_sub_right hle _)

/-- Reading changes nothing that a reader can see. -/
theorem live?_read (c : MemoryCache) {now later : Instant} (hle : now ≤ later) (k l : CacheKey) :
    (c.read now k).2.live? later l = c.live? later l := by
  unfold read
  cases he : c.stored? k with
  | none => rfl
  | some e =>
    by_cases h : e.expired now
    · by_cases hl : l = k
      · subst hl
        simp only [h, if_true, live?_erase_self]
        simp [live?, he, expired_mono h hle]
      · simp [h, live?_erase_of_ne c later hl]
    · simp [h]

end MemoryCache

end ContentSync
