import ContentSync.Proofs.Store.MemoryCache
import Mathlib.Data.List.Induction
import Mathlib.Logic.Function.Basic

/-!
# A cache in memory as a timed map

A cache drops expired entries when it is read or purged, and sometimes long after it was asked. None
of this can be seen: the cache answers like a map that never drops anything and compares the age of
an entry with its lifetime.

* `CacheStep`, `TimedCache.after` — what happens to a cache, and the cache after a history;
* `TimedMap` — the map that never drops anything;
* `TimedCache.Tracks`, `TimedCache.tracks_after` — what ties the two together through every history;
* `CacheStep.LastWritten`, `TimedMap.live?_after_iff` — what the map holds, told from the history;
* `TimedCache.answers_as_map` — what readers, purges and the size tell.
-/

set_option autoImplicit false

namespace ContentSync

/-- Something that happens to a cache. -/
inductive CacheStep where
  | write (k : CacheKey) (payload : Json) (lifetime : Duration)
  | read (k : CacheKey)
  | exist (k : CacheKey)
  | invalidate (k : CacheKey)
  | purge
  /-- A reader that looked some nanoseconds ago drops what had expired then. -/
  | evict (k : CacheKey) (lag : Nat)
  /-- Nanoseconds pass. -/
  | advance (elapsed : Nat)

/-! ## Evictions -/

namespace MemoryCache

variable {c : MemoryCache} {now seen : Instant} {k : CacheKey} {entry : Option CacheEntry}

/-- Drops the entry of a key if it had expired when it was looked at. -/
def evict (c : MemoryCache) (seen : Instant) (k : CacheKey) : MemoryCache :=
  match c.stored? k with
  | some e => if e.expired seen then c.erase k else c
  | none => c

/-- A read looks first and drops what has expired then. -/
theorem read_eq (c : MemoryCache) (now : Instant) (k : CacheKey) :
    c.read now k = (c.live? now k, c.evict now k) := by
  unfold read live? evict
  cases c.stored? k with
  | none => rfl
  | some e => by_cases he : e.expired now <;> simp [he]

theorem Distinct.evict (hc : c.Distinct) (seen : Instant) (k : CacheKey) :
    (c.evict seen k).Distinct := by
  have hread := hc.read seen k
  rwa [read_eq] at hread

/-- A late eviction drops nothing that has not expired, even if the key was written since. -/
theorem Retains.evict (hr : c.Retains now k entry) (hle : seen ≤ now) (l : CacheKey) :
    (c.evict seen l).Retains now k entry := by
  refine hr.of_filter ?_
  unfold MemoryCache.evict
  cases hl : c.stored? l with
  | none => exact .inl rfl
  | some e =>
    by_cases he : e.expired seen
    · by_cases hk : k = l
      · subst hk
        right
        simp [Option.filter_some, he, expired_mono he hle, hl, stored?_erase_self]
      · left
        simp [he, stored?_erase_of_ne c hk]
    · left
      simp [he]

theorem Retains.write_self (now : Instant) (k : CacheKey) (payload : Json) (lifetime : Duration) :
    (c.write now k payload lifetime).Retains now k (some ⟨k, payload, lifetime, now⟩) := by
  left
  simp [stored?, write]

/-! ## Sizes -/

/-- A purge tells exactly how much smaller the cache has become. -/
theorem purge_fst_add_size (c : MemoryCache) (now : Instant) :
    (c.purge now).1 + (c.purge now).2.size = c.size := by
  have hle := List.length_filter_le (fun e : CacheEntry => !e.expired now) c.entries
  simp only [purge, size]
  omega

/-- The keys that a purge leaves are those that have a live payload. -/
theorem Distinct.mem_keys_purge (hc : c.Distinct) :
    k ∈ (c.purge now).2.entries.map (·.key) ↔ ∃ payload, c.live? now k = some payload := by
  constructor
  · intro hk
    obtain ⟨e, he, rfl⟩ := List.mem_map.1 hk
    obtain ⟨hmem, hlive⟩ := List.mem_filter.1 he
    refine ⟨e.payload, ?_⟩
    rw [live?, hc.stored?_eq hmem]
    simpa using hlive
  · rintro ⟨payload, hpayload⟩
    unfold live? at hpayload
    split at hpayload
    · rename_i e he
      have hkey : e.key = k := by simpa using List.find?_some he
      split at hpayload
      · contradiction
      · rename_i hlive
        exact List.mem_map.2
          ⟨e, List.mem_filter.2 ⟨List.mem_of_find?_eq_some he, by simpa using hlive⟩, hkey⟩
    · contradiction

end MemoryCache

/-! ## Histories -/

/-- A cache in memory and its clock. -/
structure TimedCache where
  cache : MemoryCache
  now : Instant

namespace TimedCache

def step (s : TimedCache) : CacheStep → TimedCache
  | .write k payload lifetime => { s with cache := s.cache.write s.now k payload lifetime }
  | .read k => { s with cache := (s.cache.read s.now k).2 }
  | .exist _ => s
  | .invalidate k => { s with cache := s.cache.invalidate k }
  | .purge => { s with cache := (s.cache.purge s.now).2 }
  | .evict k lag => { s with cache := s.cache.evict (s.now - lag) k }
  | .advance elapsed => { s with now := s.now + elapsed }

/-- The cache after a history that begins with nothing stored. -/
def after (start : Instant) (history : List CacheStep) : TimedCache :=
  history.foldl step ⟨.empty, start⟩

/-- What a reader of a key is told. -/
def read (s : TimedCache) (k : CacheKey) : Option Json := (s.cache.read s.now k).1

/-- What is told who asks whether a key has a payload. -/
def contains (s : TimedCache) (k : CacheKey) : Bool := s.cache.contains s.now k

end TimedCache

/-- A map that never drops an entry, and its clock. -/
structure TimedMap where
  latest? : CacheKey → Option CacheEntry
  now : Instant

namespace TimedMap

/-- Only writing and invalidating change the map. -/
def step (m : TimedMap) : CacheStep → TimedMap
  | .write k payload lifetime =>
    { m with latest? := Function.update m.latest? k (some ⟨k, payload, lifetime, m.now⟩) }
  | .invalidate k => { m with latest? := Function.update m.latest? k none }
  | .advance elapsed => { m with now := m.now + elapsed }
  | _ => m

def after (start : Instant) (history : List CacheStep) : TimedMap :=
  history.foldl step ⟨fun _ => none, start⟩

/-- The payload of a key whose entry is younger than its lifetime. -/
def live? (m : TimedMap) (k : CacheKey) : Option Json :=
  ((m.latest? k).filter fun e => !e.expired m.now).map (·.payload)

end TimedMap

namespace TimedCache

variable {s : TimedCache} {m : TimedMap}

/-- The cache stores what the map holds, or has dropped it after it expired. -/
structure Tracks (s : TimedCache) (m : TimedMap) : Prop where
  now : s.now = m.now
  distinct : s.cache.Distinct
  retains : ∀ k, s.cache.Retains s.now k (m.latest? k)

theorem tracks_empty (start : Instant) : Tracks ⟨.empty, start⟩ ⟨fun _ => none, start⟩ :=
  ⟨rfl, MemoryCache.distinct_empty, fun _ => .inl rfl⟩

/-- **Whatever happens, the cache keeps track of the map.** -/
theorem Tracks.step (h : s.Tracks m) (e : CacheStep) : (s.step e).Tracks (m.step e) := by
  obtain ⟨hnow, hdistinct, hretains⟩ := h
  cases e with
  | write k payload lifetime =>
    refine ⟨hnow, hdistinct.write _ _ _ _, fun l => ?_⟩
    by_cases hl : l = k
    · subst hl
      simpa [TimedMap.step, TimedCache.step, hnow] using
        MemoryCache.Retains.write_self s.now l payload lifetime
    · simpa [TimedMap.step, hl, MemoryCache.Retains, TimedCache.step,
        MemoryCache.stored?_write_of_ne s.cache s.now hl] using hretains l
  | read k => exact ⟨hnow, hdistinct.read _ k, fun l => (hretains l).read k⟩
  | exist => exact ⟨hnow, hdistinct, hretains⟩
  | invalidate k =>
    refine ⟨hnow, hdistinct.erase k, fun l => ?_⟩
    by_cases hl : l = k
    · subst hl
      left
      simpa [TimedMap.step, TimedCache.step, MemoryCache.invalidate] using
        MemoryCache.stored?_erase_self s.cache l
    · simpa [TimedMap.step, hl, MemoryCache.Retains, TimedCache.step, MemoryCache.invalidate,
        MemoryCache.stored?_erase_of_ne s.cache hl] using hretains l
  | purge => exact ⟨hnow, hdistinct.purge _, fun l => (hretains l).purge hdistinct⟩
  | evict k lag =>
    exact ⟨hnow, hdistinct.evict _ k, fun l => (hretains l).evict (Nat.sub_le _ _) k⟩
  | advance elapsed =>
    exact ⟨congrArg (· + elapsed) hnow, hdistinct,
      fun l => (hretains l).of_le (Nat.le_add_right _ _)⟩

theorem tracks_after (start : Instant) (history : List CacheStep) :
    (after start history).Tracks (.after start history) := by
  induction history using List.reverseRecOn with
  | nil => exact tracks_empty start
  | append_singleton history e ih =>
    simpa [after, TimedMap.after] using ih.step e

/-- **The cache and the map give every reader the same answer.** -/
theorem Tracks.live?_eq (h : s.Tracks m) (k : CacheKey) : s.cache.live? s.now k = m.live? k := by
  rw [(h.retains k).live?_eq (Nat.le_refl _), TimedMap.live?, h.now]

end TimedCache

/-! ## What the map holds -/

namespace CacheStep

/-- Writing or invalidating a key. -/
def Replaces (k : CacheKey) : CacheStep → Prop
  | write l _ _ => l = k
  | invalidate l => l = k
  | _ => False

/-- The time that passes in a step. -/
def time : CacheStep → Nat
  | advance elapsed => elapsed
  | _ => 0

/-- The time that passes in a history. -/
def elapsed : List CacheStep → Nat
  | [] => 0
  | e :: history => e.time + elapsed history

/-- Of the steps that write or invalidate a key, the last one was a write, some time ago. -/
def LastWritten (history : List CacheStep) (k : CacheKey) (payload : Json) (lifetime : Duration)
    (age : Nat) : Prop :=
  ∃ before since, history = before ++ write k payload lifetime :: since ∧
    (∀ e ∈ since, ¬ e.Replaces k) ∧ elapsed since = age

/-- Writing, invalidating and the passing of time. What is left are reads, questions for existence,
purges and evictions. -/
def lasting : CacheStep → Bool
  | write .. | invalidate _ | advance _ => true
  | _ => false

theorem elapsed_append (a b : List CacheStep) : elapsed (a ++ b) = elapsed a + elapsed b := by
  induction a with
  | nil => simp [elapsed]
  | cons e a ih => rw [List.cons_append, elapsed, elapsed, ih, Nat.add_assoc]

end CacheStep

namespace TimedMap

open CacheStep

variable {m : TimedMap} {e : CacheStep} {k : CacheKey}

theorem now_step (m : TimedMap) (e : CacheStep) : (m.step e).now = m.now + e.time := by
  cases e <;> rfl

theorem now_foldl (m : TimedMap) (history : List CacheStep) :
    (history.foldl step m).now = m.now + elapsed history := by
  induction history generalizing m with
  | nil => rfl
  | cons e history ih =>
    rw [List.foldl_cons, ih, now_step, Nat.add_assoc]
    rfl

theorem latest?_step (h : ¬ e.Replaces k) : (m.step e).latest? k = m.latest? k := by
  cases e with
  | write => exact Function.update_of_ne (Ne.symm h) ..
  | invalidate => exact Function.update_of_ne (Ne.symm h) ..
  | _ => rfl

theorem latest?_foldl {history : List CacheStep} (h : ∀ e ∈ history, ¬ e.Replaces k) :
    (history.foldl step m).latest? k = m.latest? k := by
  induction history generalizing m with
  | nil => rfl
  | cons e history ih =>
    obtain ⟨he, hrest⟩ := List.forall_mem_cons.1 h
    rw [List.foldl_cons, ih hrest, latest?_step he]

/-- A step that does not last leaves the map alone. -/
theorem step_of_not_lasting (m : TimedMap) (h : e.lasting = false) : m.step e = m := by
  cases e <;> first | rfl | contradiction

/-- **Only the steps that last count.** -/
theorem after_filter_lasting (start : Instant) (history : List CacheStep) :
    after start (history.filter lasting) = after start history := by
  induction history using List.reverseRecOn with
  | nil => rfl
  | append_singleton history e ih =>
    simp only [after, List.filter_append, List.foldl_append] at ih ⊢
    rw [ih]
    cases he : e.lasting with
    | true => simp [he]
    | false => simp [he, step_of_not_lasting _ he]

/-- The map holds what was last written. -/
theorem latest?_of_lastWritten (start : Instant) {history : List CacheStep} {payload : Json}
    {lifetime : Duration} {age : Nat} (h : LastWritten history k payload lifetime age) :
    ∃ e, (after start history).latest? k = some e ∧ e.payload = payload ∧ e.lifetime = lifetime ∧
      (after start history).now = e.writtenAt + age := by
  obtain ⟨before, since, rfl, hsince, rfl⟩ := h
  refine ⟨⟨k, payload, lifetime, (after start before).now⟩, ?_, rfl, rfl, ?_⟩
  · rw [after, List.foldl_append, List.foldl_cons, latest?_foldl hsince]
    exact Function.update_self ..
  · rw [after, List.foldl_append, List.foldl_cons, now_foldl, now_step]
    rfl

/-- What the map holds was last written. -/
theorem lastWritten_of_latest? {start : Instant} {history : List CacheStep} {e : CacheEntry}
    (h : (after start history).latest? k = some e) :
    LastWritten history k e.payload e.lifetime ((after start history).now - e.writtenAt) ∧
      e.writtenAt ≤ (after start history).now := by
  induction history using List.reverseRecOn with
  | nil => contradiction
  | append_singleton history s ih =>
    have hnow : (after start (history ++ [s])).now = (after start history).now + s.time := by
      simp [after, now_step]
    have hentry : ((after start history).step s).latest? k = some e := by
      simpa [after] using h
    by_cases hs : s.Replaces k
    · cases s with
      | write l payload lifetime =>
        obtain rfl : l = k := hs
        obtain rfl : ⟨l, payload, lifetime, (after start history).now⟩ = e := by
          simpa [step] using hentry
        exact ⟨⟨history, [], rfl, nofun, by simp [hnow, elapsed, time]⟩, by simp [hnow]⟩
      | invalidate l =>
        obtain rfl : l = k := hs
        simp [step] at hentry
      | _ => cases hs
    · rw [latest?_step hs] at hentry
      obtain ⟨⟨before, since, heq, hsince, hage⟩, hle⟩ := ih hentry
      rw [hnow]
      refine ⟨⟨before, since ++ [s], by simp [heq], ?_, ?_⟩, Nat.le_add_right_of_le hle⟩
      · simpa [or_imp, forall_and, hs] using hsince
      · have htime : elapsed [s] = s.time := by simp [elapsed]
        rw [elapsed_append, hage, htime, Nat.sub_add_comm hle]

/-- **A key has a live payload** if it was last written with it, less than its lifetime ago. -/
theorem live?_after_iff {start : Instant} {history : List CacheStep} {payload : Json} :
    (after start history).live? k = some payload ↔
      ∃ lifetime age, LastWritten history k payload lifetime age ∧ age < lifetime.nanoseconds := by
  constructor
  · intro h
    simp only [live?, Option.map_eq_some_iff, Option.filter_eq_some_iff] at h
    obtain ⟨e, ⟨hentry, hlive⟩, rfl⟩ := h
    refine ⟨e.lifetime, _, (lastWritten_of_latest? hentry).1, ?_⟩
    simpa [CacheEntry.expired] using hlive
  · rintro ⟨lifetime, age, hwritten, hage⟩
    obtain ⟨e, hentry, rfl, rfl, hnow⟩ := latest?_of_lastWritten start hwritten
    simp only [live?, Option.map_eq_some_iff, Option.filter_eq_some_iff]
    refine ⟨e, ⟨hentry, ?_⟩, rfl⟩
    simp only [CacheEntry.expired, hnow, Nat.add_sub_cancel_left]
    simpa using hage

end TimedMap

/-! ## What is told -/

namespace TimedCache

open CacheStep

/-- **A cache in memory is a timed map.** After any history, a reader gets the payload that was last
written under the key, if it was not invalidated since and is younger than its lifetime; existence
is answered alike; reads, questions, purges and evictions at any place of the history change none of
these answers. There is one entry for each key, at least as many as live keys and just as many after
a purge, and a purge tells exactly how many entries it dropped. -/
theorem answers_as_map (start : Instant) (history : List CacheStep) :
    (∀ k payload, (after start history).read k = some payload ↔
      ∃ lifetime age, LastWritten history k payload lifetime age ∧
        age < lifetime.nanoseconds) ∧
    (∀ k, (after start history).contains k = true ↔
      ∃ payload lifetime age, LastWritten history k payload lifetime age ∧
        age < lifetime.nanoseconds) ∧
    (∀ other, other.filter lasting = history.filter lasting → ∀ k,
      (after start other).read k = (after start history).read k ∧
      (after start other).contains k = (after start history).contains k) ∧
    ((after start history).cache.entries.map (·.key)).Nodup ∧
    (∃ live : List CacheKey, live.Nodup ∧
      (∀ k, k ∈ live ↔ ∃ payload, (after start history).read k = some payload) ∧
      live.length ≤ (after start history).cache.size ∧
      (after start (history ++ [.purge])).cache.size = live.length) ∧
    ((after start history).cache.purge (after start history).now).1 +
      (after start (history ++ [.purge])).cache.size = (after start history).cache.size := by
  have hread : ∀ history k, (after start history).read k = (TimedMap.after start history).live? k :=
    fun history k => by rw [read, MemoryCache.read_fst, (tracks_after start history).live?_eq]
  have hcontains : ∀ history k,
      (after start history).contains k = ((TimedMap.after start history).live? k).isSome :=
    fun history k => by rw [contains, MemoryCache.contains, (tracks_after start history).live?_eq]
  have hdistinct := (tracks_after start history).distinct
  have hpurge : (after start (history ++ [.purge])).cache =
      ((after start history).cache.purge (after start history).now).2 := by
    simp [after, step]
  have hsize := MemoryCache.purge_fst_add_size (after start history).cache (after start history).now
  refine ⟨fun k payload => ?_, fun k => ?_, fun other hother k => ?_, hdistinct, ?_, ?_⟩
  · rw [hread, TimedMap.live?_after_iff]
  · simp only [hcontains, Option.isSome_iff_exists, TimedMap.live?_after_iff]
  · rw [hread, hread, hcontains, hcontains, ← TimedMap.after_filter_lasting start other, hother,
      TimedMap.after_filter_lasting]
    exact ⟨rfl, rfl⟩
  · rw [hpurge]
    refine ⟨_, hdistinct.purge (after start history).now, fun k => ?_, ?_,
      (List.length_map ..).symm⟩
    · rw [hdistinct.mem_keys_purge, read, MemoryCache.read_fst]
    · rw [List.length_map]
      exact Nat.le_of_add_left_le (Nat.le_of_eq hsize)
  · rw [hpurge, hsize]

end TimedCache

end ContentSync
