import ContentSync.Store.MemoryCache

/-!
# What readers of a cache in memory see

* `MemoryCache.Distinct` — no two entries have the same key, which every operation keeps;
* `MemoryCache.Distinct.live?_purge` — a purge changes nothing that a reader can see;
* `MemoryCache.Retains` — an entry is stored, unless it has expired and was dropped.
-/

set_option autoImplicit false

namespace ContentSync.MemoryCache

variable {c : MemoryCache} {now later : Instant} {k l : CacheKey}

/-- No two entries have the same key. -/
def Distinct (c : MemoryCache) : Prop := (c.entries.map (·.key)).Nodup

theorem distinct_empty : empty.Distinct := List.nodup_nil

theorem Distinct.filter (hc : c.Distinct) (keep : CacheEntry → Bool) :
    Distinct ⟨c.entries.filter keep⟩ :=
  List.Sublist.nodup ((List.filter_sublist ..).map _) hc

theorem Distinct.erase (hc : c.Distinct) (k : CacheKey) : (c.erase k).Distinct := hc.filter _

theorem Distinct.write (hc : c.Distinct) (now : Instant) (k : CacheKey) (payload : Json)
    (lifetime : Duration) : (c.write now k payload lifetime).Distinct := by
  refine List.nodup_cons.2 ⟨?_, hc.erase k⟩
  simp [MemoryCache.erase]

theorem Distinct.read (hc : c.Distinct) (now : Instant) (k : CacheKey) :
    (c.read now k).2.Distinct := by
  unfold MemoryCache.read
  split
  · split
    · exact hc.erase k
    · exact hc
  · exact hc

theorem Distinct.purge (hc : c.Distinct) (now : Instant) : (c.purge now).2.Distinct := hc.filter _

theorem stored?_write_of_ne (c : MemoryCache) (now : Instant) (h : l ≠ k) (payload : Json)
    (lifetime : Duration) : (c.write now k payload lifetime).stored? l = c.stored? l := by
  rw [← stored?_erase_of_ne c h]
  simp [stored?, write, Ne.symm h]

/-- The only entry of a key is the one that is found. -/
theorem Distinct.stored?_eq (hc : c.Distinct) {e : CacheEntry} (he : e ∈ c.entries) :
    c.stored? e.key = some e := by
  obtain ⟨entries⟩ := c
  simp only [Distinct, stored?] at hc ⊢
  induction entries with
  | nil => cases he
  | cons d entries ih =>
    obtain ⟨hnot, hc⟩ := List.nodup_cons.1 hc
    obtain rfl | he := List.mem_cons.1 he
    · simp
    · have hne : d.key ≠ e.key := fun heq =>
        hnot (List.mem_map.2 ⟨e, he, heq.symm⟩)
      simpa [hne] using ih hc he

/-- A purge drops the expired entries and no other. -/
theorem Distinct.stored?_purge (hc : c.Distinct) (now : Instant) (k : CacheKey) :
    (c.purge now).2.stored? k = (c.stored? k).filter fun e => !e.expired now := by
  have hp := hc.purge now
  cases hstored : (c.purge now).2.stored? k with
  | some e =>
    have hmem : e ∈ (c.purge now).2.entries := List.mem_of_find?_eq_some hstored
    have hkey : e.key = k := by simpa using List.find?_some hstored
    obtain ⟨hin, hlive⟩ := List.mem_filter.1 hmem
    rw [← hkey, hc.stored?_eq hin, Option.filter_some, if_pos hlive]
  | none =>
    cases horiginal : c.stored? k with
    | none => rfl
    | some e =>
      have hin : e ∈ c.entries := List.mem_of_find?_eq_some horiginal
      have hkey : e.key = k := by simpa using List.find?_some horiginal
      rw [Option.filter_some, if_neg]
      intro hlive
      have hkept : e ∈ (c.purge now).2.entries := List.mem_filter.2 ⟨hin, hlive⟩
      have hfound := hp.stored?_eq hkept
      rw [hkey, hstored] at hfound
      cases hfound

/-- **A purge changes nothing that a reader can see.** -/
theorem Distinct.live?_purge (hc : c.Distinct) (hle : now ≤ later) (k : CacheKey) :
    (c.purge now).2.live? later k = c.live? later k := by
  simp only [live?, hc.stored?_purge]
  cases c.stored? k with
  | none => rfl
  | some e =>
    by_cases he : e.expired now
    · -- Only an expired entry is dropped, and it stays expired.
      simp [Option.filter_some, he, expired_mono he hle]
    · simp [Option.filter_some, he]

/-! ## Entries that are retained -/

/-- A cache stores an entry, or nothing if there is none, except that it may have dropped an entry
that has expired. -/
def Retains (c : MemoryCache) (now : Instant) (k : CacheKey) (entry : Option CacheEntry) : Prop :=
  c.stored? k = entry ∨ ∃ e, entry = some e ∧ e.expired now = true ∧ c.stored? k = none

variable {entry : Option CacheEntry}

theorem retains_stored (c : MemoryCache) (now : Instant) (k : CacheKey) :
    c.Retains now k (c.stored? k) := .inl rfl

theorem Retains.of_le (hr : c.Retains now k entry) (hle : now ≤ later) :
    c.Retains later k entry := by
  obtain heq | ⟨e, rfl, he, hnone⟩ := hr
  · exact .inl heq
  · exact .inr ⟨e, rfl, expired_mono he hle, hnone⟩

/-- An entry stays retained when only expired entries are dropped. -/
theorem Retains.of_filter {d : MemoryCache} (hr : c.Retains now k entry)
    (hd : d.stored? k = c.stored? k ∨
      d.stored? k = (c.stored? k).filter fun e => !e.expired now) : d.Retains now k entry := by
  obtain hd | hd := hd
  · rwa [Retains, hd]
  obtain heq | ⟨e, rfl, he, hnone⟩ := hr
  · rw [heq] at hd
    cases entry with
    | none => exact .inl hd
    | some e =>
      by_cases he : e.expired now
      · exact .inr ⟨e, rfl, he, by simpa [Option.filter_some, he] using hd⟩
      · exact .inl (by simpa [Option.filter_some, he] using hd)
  · exact .inr ⟨e, rfl, he, by simpa [hnone] using hd⟩

theorem Retains.purge (hr : c.Retains now k entry) (hc : c.Distinct) :
    (c.purge now).2.Retains now k entry := hr.of_filter (.inr (hc.stored?_purge now k))

theorem Retains.read (hr : c.Retains now k entry) (l : CacheKey) :
    (c.read now l).2.Retains now k entry := by
  refine hr.of_filter ?_
  unfold MemoryCache.read
  cases hl : c.stored? l with
  | none => exact .inl rfl
  | some e =>
    by_cases he : e.expired now
    · by_cases hk : k = l
      · subst hk
        right
        simp [Option.filter_some, he, hl, stored?_erase_self]
      · left
        simp [he, stored?_erase_of_ne c hk]
    · left
      simp [he]

/-- What a reader sees of an entry that is retained. -/
theorem Retains.live?_eq (hr : c.Retains now k entry) (hle : now ≤ later) :
    c.live? later k = (entry.filter fun e => !e.expired later).map (·.payload) := by
  obtain heq | ⟨e, rfl, he, hnone⟩ := hr
  · rw [live?, heq]
    cases entry with
    | none => rfl
    | some e => by_cases he : e.expired later <;> simp [Option.filter_some, he]
  · simp [live?, hnone, Option.filter_some, expired_mono he hle]

end ContentSync.MemoryCache
