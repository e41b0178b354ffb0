import ContentSync.Proofs.Engine.Effects
import ContentSync.Proofs.Engine.Versions

/-!
# Lookups read through the cache

Any number of lookups and epochs share one cache. Their calls are answered in any order, and what one
lookup puts into the cache another one may find. Nothing is found that the content service has not
answered to a lookup of the same player.

* `Note`, `Desk` — the lookups and epochs so far, and every answer to a lookup;
* `Desk.Step`, `Desk.Reached` — what happens next, and the desks to which it leads;
* `World.mem_entries_after` — an entry was there before, or has just been written;
* `Supplied` — a lookup has brought a record and put it into the cache;
* `Desk.Sound` — every entry of a player, and every record that was found, was supplied by a lookup;
* `Desk.Step.sound`, `Desk.Reached.sound` — so it is whatever happens;
* `Accounted` / `Desk.Reached.transparent` — what the result of a lookup tells of its calls.
-/

set_option autoImplicit false

namespace ContentSync

/-- A well-formed code consists of what is left of it. -/
theorem AllyCode.eq_of_parse? {raw : String} {code : AllyCode} (h : parse? raw = some code) :
    code = ⟨String.ofList (normalize raw)⟩ := by
  simp only [parse?, Option.ite_none_right_eq_some, Option.some.injEq] at h
  exact h.2.symm

namespace MemoryCache

variable {c : MemoryCache} {now : Instant} {k : CacheKey} {entry : CacheEntry}

/-- What a reader sees is the payload of an entry that has not expired. -/
theorem exists_of_live? {payload : Json} (h : c.live? now k = some payload) :
    ∃ entry ∈ c.entries, entry.key = k ∧ entry.payload = payload ∧ entry.expired now = false := by
  unfold live? at h
  split at h
  · next entry hstored =>
    simp only [Option.ite_none_left_eq_some, Option.some.injEq, Bool.not_eq_true] at h
    exact ⟨entry, List.mem_of_find?_eq_some hstored, by simpa using List.find?_some hstored,
      h.2, h.1⟩
  · cases h

theorem mem_entries_of_read (h : entry ∈ (c.read now k).2.entries) : entry ∈ c.entries := by
  unfold MemoryCache.read at h
  split at h
  · split at h
    · exact (List.mem_filter.1 h).1
    · exact h
  · exact h

end MemoryCache

namespace Engine

open Program

/-- **An entry was there before an answer, or has been written by it.** -/
theorem World.mem_entries_after {w : World} {e : Exchange} {entry : CacheEntry}
    (h : entry ∈ (w.after e).cache.entries) :
    entry ∈ w.cache.entries ∨
      e.Brings (.write entry.key entry.payload entry.lifetime) () ∧ entry.writtenAt = w.now := by
  cases hdone : e.done? with
  | none => exact .inl (by simpa [World.after, hdone] using h)
  | some c =>
    have hcache : (w.after e).cache = (w.apply c).cache := by simp [World.after, hdone]
    rw [hcache] at h
    obtain ⟨x, hb⟩ := Exchange.exists_of_done? hdone
    cases c with
    | metadata | fetch | player | versions | commit | exist => exact .inl h
    | read => exact .inl (MemoryCache.mem_entries_of_read h)
    | invalidate => exact .inl (List.mem_filter.1 h).1
    | write key payload lifetime =>
      obtain rfl | h := List.mem_cons.1 h
      · exact .inr ⟨hb, rfl⟩
      · exact .inl (List.mem_filter.1 h).1

/-- A call that was answered as the stores say. -/
theorem World.answers_wait {w : World} {c : Call} {x : c.Answer} (h : w.Gives c x) :
    w.Answers ⟨.wait c, .ok x⟩ := by
  intro c' x' hb
  cases hb
  exact h

/-- An epoch writes no entry of a player. -/
theorem Run.key_ne_ofPlayer {p : SyncPolicy} {trigger : Trigger} {t u : List Moment} {s : Situation}
    {worker : Worker} {e : Exchange} (run : Run p trigger (t ++ .answered worker e :: u) s)
    {key : CacheKey} {payload : Json} {lifetime : Duration}
    (hb : e.Brings (.write key payload lifetime) ()) (code : AllyCode) : key ≠ .ofPlayer code := by
  obtain ⟨-, _, _, _, _, _, f, _, _, -, -, -, -, -, rfl, -⟩ :=
    run.asked_write (.answered e.answer) hb.call?
  exact FetchTarget.key_ne_ofPlayer _ _ code

/-- What a moment of an epoch leaves behind. -/
def World.upon (w : World) : Moment → World
  | .answered _ e => w.after e
  | _ => w

/-! ## Lookups and epochs side by side -/

/-- An answer to a lookup. -/
structure Note where
  lookup : Nat
  instant : Instant
  exchange : Exchange

/-- The lookups and the epochs so far, and what they share. -/
structure Desk where
  world : World
  /-- The code of each lookup as it was written, in the order in which they have come in. -/
  codes : List String
  /-- The answers to all lookups, the earliest first. -/
  notes : List Note
  /-- The trigger of each epoch, and what has happened in it. -/
  epochs : List (Trigger × List Moment)

namespace Desk

/-- What has been answered to a lookup. -/
def past (d : Desk) (n : Nat) : List Exchange :=
  (d.notes.filter fun note => note.lookup = n).map (·.exchange)

/-- What happens next. Whoever makes a call may be the next one to be answered, or never be. -/
inductive Step (p : SyncPolicy) (lifetime : Duration) (d : Desk) : Desk → Prop
  | tick (length : Nat) :
    Step p lifetime d { d with world := { d.world with now := d.world.now + length } }
  | purge :
    Step p lifetime d
      { d with world := { d.world with cache := (d.world.cache.purge d.world.now).2 } }
  | asked (raw : String) : Step p lifetime d { d with codes := d.codes ++ [raw] }
  | answered {n : Nat} {raw : String} {e : Exchange} (code : d.codes[n]? = some raw)
    (asks : (lookup lifetime raw).Asks (d.past n) e.request) (answers : d.world.Answers e) :
    Step p lifetime d
      { d with world := d.world.after e, notes := d.notes ++ [⟨n, d.world.now, e⟩] }
  | begun (trigger : Trigger) : Step p lifetime d { d with epochs := d.epochs ++ [(trigger, [])] }
  | went {i : Nat} {trigger : Trigger} {t : List Moment} {m : Moment} {s : Situation}
    (epoch : d.epochs[i]? = some (trigger, t)) (run : Run p trigger (t ++ [m]) s)
    (answers : ∀ worker e, m = .answered worker e → d.world.Answers e) :
    Step p lifetime d
      { d with world := d.world.upon m, epochs := d.epochs.set i (trigger, t ++ [m]) }

/-- The desks to which anything can lead from one at which nobody has asked yet, with a cache that has
no player. -/
inductive Reached (p : SyncPolicy) (lifetime : Duration) : Desk → Prop
  | start (w : World) (nobody : ∀ entry ∈ w.cache.entries, ∀ code, entry.key ≠ .ofPlayer code) :
    Reached p lifetime ⟨w, [], [], []⟩
  | step {d d' : Desk} (reached : Reached p lifetime d) (hs : d.Step p lifetime d') :
    Reached p lifetime d'

end Desk

/-! ## Where records come from -/

/-- A lookup has brought the record of a player from the content service, and has put it into the cache
at an instant. -/
structure Supplied (lifetime : Duration) (codes : List String) (notes : List Note) (n : Nat)
    (code : AllyCode) (record : Json) (instant : Instant) : Prop where
  code_eq : codes[n]?.bind AllyCode.parse? = some code
  brought : ∃ earlier ≤ instant, ⟨n, earlier, playerAnswer code (.ok record)⟩ ∈ notes
  stored : ⟨n, instant, storeAnswer code record lifetime (.ok ())⟩ ∈ notes

section

variable {lifetime : Duration} {codes codes' : List String} {notes notes' : List Note} {n : Nat}
  {code : AllyCode} {record : Json} {instant : Instant}

theorem Supplied.append_codes (hs : Supplied lifetime codes notes n code record instant) :
    Supplied lifetime (codes ++ codes') notes n code record instant where
  code_eq := by
    obtain ⟨raw, hraw, hcode⟩ := Option.bind_eq_some_iff.1 hs.code_eq
    obtain ⟨hlt, -⟩ := List.getElem?_eq_some_iff.1 hraw
    rw [List.getElem?_append_left hlt]
    exact hs.code_eq
  brought := hs.brought
  stored := hs.stored

theorem Supplied.append_notes (hs : Supplied lifetime codes notes n code record instant) :
    Supplied lifetime codes (notes ++ notes') n code record instant where
  code_eq := hs.code_eq
  brought := by
    obtain ⟨earlier, hle, hmem⟩ := hs.brought
    exact ⟨earlier, hle, List.mem_append_left _ hmem⟩
  stored := List.mem_append_left _ hs.stored

end

/-- A record was supplied to a desk before it was found by a lookup, and had not expired then. -/
def FoundFresh (lifetime : Duration) (d : Desk) (n : Nat) (code : AllyCode) (record : Json) : Prop :=
  ∃ before instant after, d.notes =
      before ++ ⟨n, instant, readAnswer code (.ok (some record))⟩ :: after ∧
    ∃ m written, m ≠ n ∧ Supplied lifetime d.codes before m code record written ∧
      written ≤ instant ∧ instant - written < lifetime.nanoseconds

namespace Desk

/-- Every entry of a player, and every record that was found, was supplied by a lookup. -/
structure Sound (lifetime : Duration) (d : Desk) : Prop where
  /-- What has been answered to a lookup is what it has asked for. -/
  followed : ∀ n raw, d.codes[n]? = some raw → ∃ rest, (lookup lifetime raw).Path (d.past n) rest
  owned : ∀ note ∈ d.notes, note.lookup < d.codes.length
  instant_le : ∀ note ∈ d.notes, note.instant ≤ d.world.now
  entries : ∀ entry ∈ d.world.cache.entries, ∀ code, entry.key = .ofPlayer code →
    entry.lifetime = lifetime ∧ entry.writtenAt ≤ d.world.now ∧
      ∃ n, Supplied lifetime d.codes d.notes n code entry.payload entry.writtenAt
  found : ∀ before n instant code record after,
    d.notes = before ++ ⟨n, instant, readAnswer code (.ok (some record))⟩ :: after →
      ∃ m written, Supplied lifetime d.codes before m code record written ∧ written ≤ instant ∧
        instant - written < lifetime.nanoseconds

variable {p : SyncPolicy} {lifetime : Duration} {d d' : Desk} {codes : List String}
  {notes : List Note} {n : Nat} {raw : String} {code : AllyCode} {record : Json} {e : Exchange}
  {result : Except Failure (Json × Source)}

theorem past_append (d : Desk) (w : World) (n m : Nat) (instant : Instant) (e : Exchange) :
    past { d with world := w, notes := d.notes ++ [⟨n, instant, e⟩] } m =
      if n = m then d.past m ++ [e] else d.past m := by
  by_cases hn : n = m <;> simp [past, hn]

theorem mem_notes_of_mem_past (he : e ∈ d.past n) : ∃ instant, ⟨n, instant, e⟩ ∈ d.notes := by
  obtain ⟨⟨m, instant, e⟩, hnote, rfl⟩ := List.mem_map.1 he
  obtain ⟨hmem, hm⟩ := List.mem_filter.1 hnote
  obtain rfl : m = n := of_decide_eq_true hm
  exact ⟨instant, hmem⟩

/-! ## What happens keeps a desk sound -/

/-- Nothing is asked or answered, and no player enters the cache. -/
theorem Sound.same (hd : d.Sound lifetime) (hcodes : d'.codes = d.codes)
    (hnotes : d'.notes = d.notes) (hnow : d.world.now ≤ d'.world.now)
    (hentries : ∀ entry ∈ d'.world.cache.entries, ∀ code, entry.key = .ofPlayer code →
      entry ∈ d.world.cache.entries) : d'.Sound lifetime where
  followed n raw hraw := by
    rw [hcodes] at hraw
    simpa only [past, hnotes] using hd.followed n raw hraw
  owned note hnote := by
    rw [hnotes] at hnote
    rw [hcodes]
    exact hd.owned note hnote
  instant_le note hnote := by
    rw [hnotes] at hnote
    exact Nat.le_trans (hd.instant_le note hnote) hnow
  entries entry hentry code hkey := by
    obtain ⟨hlifetime, hle, hsupplied⟩ := hd.entries entry (hentries entry hentry code hkey) code hkey
    rw [hcodes, hnotes]
    exact ⟨hlifetime, Nat.le_trans hle hnow, hsupplied⟩
  found before n instant code record after heq := by
    rw [hnotes] at heq
    rw [hcodes]
    exact hd.found before n instant code record after heq

/-- One more lookup, to which nothing has been answered. -/
theorem Sound.asked (hd : d.Sound lifetime) (raw : String) :
    Sound lifetime { d with codes := d.codes ++ [raw] } where
  followed n raw' hraw := by
    rw [List.getElem?_append] at hraw
    split at hraw
    · exact hd.followed n raw' hraw
    · next hn =>
      have hpast : d.past n = [] := by
        refine List.map_eq_nil_iff.2 (List.filter_eq_nil_iff.2 fun note hnote heq => hn ?_)
        exact of_decide_eq_true heq ▸ hd.owned note hnote
      rw [show past { d with codes := d.codes ++ [raw] } n = [] from hpast]
      exact ⟨_, .here _⟩
  owned note hnote := by
    rw [List.length_append]
    exact Nat.lt_add_right _ (hd.owned note hnote)
  instant_le := hd.instant_le
  entries entry hentry code hkey := by
    obtain ⟨hlifetime, hle, n, hsupplied⟩ := hd.entries entry hentry code hkey
    exact ⟨hlifetime, hle, n, hsupplied.append_codes⟩
  found before n instant code record after heq := by
    obtain ⟨m, written, hsupplied, hfresh⟩ := hd.found before n instant code record after heq
    exact ⟨m, written, hsupplied.append_codes, hfresh⟩

/-- What a lookup writes, it was just given by the content service. -/
theorem Sound.supplied_of_write (hd : d.Sound lifetime) (hraw : d.codes[n]? = some raw)
    (asks : (lookup lifetime raw).Asks (d.past n) e.request) {key : CacheKey} {record : Json}
    {lifetime' : Duration} (hb : e.Brings (.write key record lifetime') ()) :
    ∃ code, key = .ofPlayer code ∧ lifetime' = lifetime ∧
      Supplied lifetime d.codes (d.notes ++ [⟨n, d.world.now, e⟩]) n code record d.world.now := by
  obtain ⟨code, hcode, hasks⟩ := asks_lookup_iff.1 asks
  generalize hpast : d.past n = past at hasks
  generalize hrequest : e.request = request at hasks
  cases hasks with
  | read => cases hb <;> cases hrequest
  | player => cases hb <;> cases hrequest
  | @store found record' absent =>
    obtain ⟨earlier, hbrought⟩ :=
      mem_notes_of_mem_past (d := d) (n := n) (e := playerAnswer code (.ok record')) (by simp [hpast])
    cases hb with
    | wait =>
      cases hrequest
      refine ⟨code, rfl, rfl, ?_, ⟨earlier, hd.instant_le _ hbrought, ?_⟩, ?_⟩
      · rw [hraw]
        exact hcode
      · exact List.mem_append_left _ hbrought
      · exact List.mem_append_right _ (List.mem_singleton.2 rfl)
    | call => cases hrequest
    | attempt => cases hrequest

/-- **An answer to a lookup keeps a desk sound.** -/
theorem Sound.answered (hd : d.Sound lifetime) (hraw : d.codes[n]? = some raw)
    (asks : (lookup lifetime raw).Asks (d.past n) e.request) (answers : d.world.Answers e) :
    Sound lifetime { d with
      world := d.world.after e, notes := d.notes ++ [⟨n, d.world.now, e⟩] } where
  followed m raw' hraw' := by
    rw [past_append]
    split
    · next hn =>
      subst hn
      obtain rfl : raw = raw' := Option.some.inj (hraw.symm.trans hraw')
      obtain ⟨next, hpath⟩ := asks
      exact ⟨_, hpath.answer e.answer⟩
    · exact hd.followed m raw' hraw'
  owned note hnote := by
    obtain hnote | hnote := List.mem_append.1 hnote
    · exact hd.owned note hnote
    · obtain rfl := List.mem_singleton.1 hnote
      exact (List.getElem?_eq_some_iff.1 hraw).1
  instant_le note hnote := by
    rw [World.now_after]
    obtain hnote | hnote := List.mem_append.1 hnote
    · exact hd.instant_le note hnote
    · obtain rfl := List.mem_singleton.1 hnote
      exact Nat.le_refl _
  entries entry hentry code hkey := by
    rw [World.now_after]
    obtain hentry | ⟨hb, hwritten⟩ := World.mem_entries_after hentry
    · obtain ⟨hlifetime, hle, m, hsupplied⟩ := hd.entries entry hentry code hkey
      exact ⟨hlifetime, hle, m, hsupplied.append_notes⟩
    · obtain ⟨code', hkey', hlifetime, hsupplied⟩ := hd.supplied_of_write hraw asks hb
      obtain rfl := CacheKey.ofPlayer_inj (hkey.symm.trans hkey')
      exact ⟨hlifetime, Nat.le_of_eq hwritten, n, hwritten ▸ hsupplied⟩
  found before m instant code record after heq := by
    obtain rfl | ⟨after, note, rfl⟩ := after.eq_nil_or_concat
    · -- The record has just been found.
      obtain ⟨rfl, hnote⟩ := List.append_inj' heq rfl
      cases hnote
      have hlive := answers (.read (.ofPlayer code)) (some record) .wait
      obtain ⟨entry, hentry, hkey, rfl, hfresh⟩ := MemoryCache.exists_of_live? hlive.symm
      obtain ⟨hlifetime, hle, m, hsupplied⟩ := hd.entries entry hentry code hkey
      refine ⟨m, entry.writtenAt, hsupplied, hle, ?_⟩
      simpa [CacheEntry.expired, hlifetime] using hfresh
    · rw [List.concat_eq_append, ← List.cons_append, ← List.append_assoc] at heq
      exact hd.found before m instant code record after (List.append_inj' heq rfl).1

/-- **Whatever happens keeps a desk sound.** -/
theorem Step.sound (hs : d.Step p lifetime d') (hd : d.Sound lifetime) : d'.Sound lifetime := by
  cases hs with
  | tick length =>
    exact hd.same rfl rfl (Nat.le_add_right _ _) fun _ hentry _ _ => hentry
  | purge =>
    exact hd.same rfl rfl (Nat.le_refl _) fun _ hentry _ _ => (List.mem_filter.1 hentry).1
  | asked raw => exact hd.asked raw
  | answered code asks answers => exact hd.answered code asks answers
  | begun => exact hd.same rfl rfl (Nat.le_refl _) fun _ hentry _ _ => hentry
  | @went i trigger t m s epoch run answers =>
    refine hd.same rfl rfl ?_ fun entry hentry code hkey => ?_
    · cases m <;> simp [World.upon]
    · cases m with
      | answered worker e =>
        obtain hentry | ⟨hb, -⟩ := World.mem_entries_after hentry
        · exact hentry
        · exact absurd hkey (run.key_ne_ofPlayer hb code)
      | cancelled | asked | selected | progressed => exact hentry

theorem Reached.sound (reached : d.Reached p lifetime) : d.Sound lifetime := by
  induction reached with
  | start w nobody =>
    exact
      { followed := by simp
        owned := by simp
        instant_le := by simp
        entries := fun entry hentry code hkey => absurd hkey (nobody entry hentry code)
        found := by simp }
  | step _ hs ih => exact hs.sound ih

/-- A record that was found was supplied by another lookup. -/
theorem Sound.foundFresh (hd : d.Sound lifetime)
    (hpast : d.past n = [readAnswer code (.ok (some record))]) :
    FoundFresh lifetime d n code record := by
  obtain ⟨instant, hmem⟩ := mem_notes_of_mem_past (d := d) (n := n) (hpast ▸ List.mem_singleton_self _)
  obtain ⟨before, after, heq⟩ := List.append_of_mem hmem
  obtain ⟨m, written, hsupplied, hfresh⟩ := hd.found _ _ _ _ _ _ heq
  refine ⟨before, instant, after, heq, m, written, ?_, hsupplied, hfresh⟩
  rintro rfl
  -- This lookup has not asked the content service itself.
  obtain ⟨earlier, -, hbrought⟩ := hsupplied.brought
  have hmem : playerAnswer code (.ok record) ∈ d.past m :=
    List.mem_map.2 ⟨_, List.mem_filter.2 ⟨heq ▸ List.mem_append_left _ hbrought, by simp⟩, rfl⟩
  rw [hpast] at hmem
  cases List.mem_singleton.1 hmem

end Desk

/-- What the result of a lookup tells of its calls. -/
inductive Accounted (lifetime : Duration) (d : Desk) (n : Nat) (raw : String) :
    Except Failure (Json × Source) → Prop
  /-- A code that is not well-formed leads to no call. -/
  | malformed (refused : AllyCode.parse? raw = none) (past_eq : d.past n = []) :
    Accounted lifetime d n raw (.error (.allyCode raw))
  /-- The only call to the content service has failed, and nothing was written. -/
  | failed {code : AllyCode} {found : Except Failure (Option Json)} {f : Failure}
    (parsed : AllyCode.parse? raw = some code)
    (past_eq : d.past n = [readAnswer code found, playerAnswer code (.error f)]) :
    Accounted lifetime d n raw (.error f)
  /-- The record is the answer to the only call to the content service, whatever the cache has
  answered before and after it. -/
  | missed {code : AllyCode} {found : Except Failure (Option Json)} {record : Json}
    {stored : Except Failure Unit} (parsed : AllyCode.parse? raw = some code)
    (past_eq : d.past n = [readAnswer code found, playerAnswer code (.ok record),
      storeAnswer code record lifetime stored]) :
    Accounted lifetime d n raw (.ok (record, .service))
  /-- The record was found in the cache, where another lookup has put it, and there was no call to the
  content service. -/
  | hit {code : AllyCode} {record : Json} (parsed : AllyCode.parse? raw = some code)
    (past_eq : d.past n = [readAnswer code (.ok (some record))])
    (fresh : FoundFresh lifetime d n code record) :
    Accounted lifetime d n raw (.ok (record, .cache))

namespace Desk

variable {p : SyncPolicy} {lifetime : Duration} {d : Desk}

/-- **Lookups see through the cache.** Whatever lookups and epochs share a cache that had no player, in
whichever order their calls are answered and whichever of them fail: every result of a lookup is
accounted for by its own calls, and a record that was found, by those of an earlier lookup of the same
player whose record has not expired. A code that is not well-formed is refused at once. The cache has no
record of a player but what the content service has answered to a lookup. Two codes have one entry if
they are equal without blanks at the ends and dashes, and different entries otherwise. -/
theorem Reached.transparent (reached : d.Reached p lifetime) :
    (∀ n raw, d.codes[n]? = some raw →
      (∀ result, (lookup lifetime raw).Ends (d.past n) result → Accounted lifetime d n raw result) ∧
      (AllyCode.parse? raw = none →
        d.past n = [] ∧ (lookup lifetime raw).Ends (d.past n) (.error (.allyCode raw)))) ∧
    (∀ entry ∈ d.world.cache.entries, ∀ code, entry.key = .ofPlayer code →
      ∃ n, Supplied lifetime d.codes d.notes n code entry.payload entry.writtenAt) ∧
    ∀ raw raw' code code', AllyCode.parse? raw = some code → AllyCode.parse? raw' = some code' →
      (CacheKey.ofPlayer code = CacheKey.ofPlayer code' ↔
        AllyCode.normalize raw = AllyCode.normalize raw') := by
  have hd := reached.sound
  refine ⟨fun n raw hraw => ⟨fun result hends => ?_, fun hrefused => ?_⟩, ?_, ?_⟩
  · obtain ⟨hrefused, hpast, rfl⟩ | ⟨code, hcode, hends⟩ := ends_lookup_iff.1 hends
    · exact .malformed hrefused hpast
    · generalize hpast : d.past n = past at hends
      cases hends with
      | hit => exact .hit hcode hpast (hd.foundFresh hpast)
      | failed => exact .failed hcode hpast
      | missed => exact .missed hcode hpast
  · obtain ⟨rest, hpath⟩ := hd.followed n raw hraw
    have hstart : (lookup lifetime raw).Ends [] (.error (.allyCode raw)) :=
      ends_lookup_iff.2 (.inl ⟨hrefused, rfl, rfl⟩)
    have hpast : d.past n = [] := (hstart.eq_nil_of_append hpath).1
    rw [hpast]
    exact ⟨rfl, hstart⟩
  · intro entry hentry code hkey
    obtain ⟨-, -, hsupplied⟩ := hd.entries entry hentry code hkey
    exact hsupplied
  · intro raw raw' code code' hcode hcode'
    obtain rfl := AllyCode.eq_of_parse? hcode
    obtain rfl := AllyCode.eq_of_parse? hcode'
    constructor
    · intro h
      exact String.ofList_injective (AllyCode.mk.inj (CacheKey.ofPlayer_inj h))
    · intro h
      rw [h]

/-- A code is looked up twice while an epoch begins; the record that the first lookup has brought is
found by the second one, for which the code was written otherwise. -/
theorem Reached.transparent_twice :
    ∃ d : Desk, d.Reached .fullOnly (.seconds 60) ∧ d.codes = ["123-456-789", " 123456789"] ∧
      d.epochs = [(.scheduled, [.asked .epoch .clock])] ∧
      Accounted (.seconds 60) d 0 "123-456-789" (.ok (.object [("name", .string "Rey")], .service)) ∧
      Accounted (.seconds 60) d 1 " 123456789" (.ok (.object [("name", .string "Rey")], .cache)) := by
  have hfirst : AllyCode.parse? "123-456-789" = some ⟨"123456789"⟩ := by decide +kernel
  have hsecond : AllyCode.parse? " 123456789" = some ⟨"123456789"⟩ := by decide +kernel
  generalize (⟨"123456789"⟩ : AllyCode) = code at hfirst hsecond
  generalize Json.object [("name", .string "Rey")] = record
  have absent : NotFound (.ok none) := by
    intro record h
    cases h
  have hlive (c : MemoryCache) :
      (c.write 0 (.ofPlayer code) record (.seconds 60)).live? 5 (.ofPlayer code) = some record := by
    rw [MemoryCache.live?_write_self]
    rfl
  have started : Reached .fullOnly (.seconds 60) ⟨.cold 0, [], [], []⟩ :=
    .start _ fun entry hentry => absurd hentry List.not_mem_nil
  have missed := started.step (.asked "123-456-789")
    |>.step (.answered (n := 0) (e := readAnswer code (.ok none)) rfl
      (asks_lookup_iff.2 ⟨code, hfirst, .read⟩) (World.answers_wait rfl))
    |>.step (.answered (n := 0) (e := playerAnswer code (.ok record)) rfl
      (asks_lookup_iff.2 ⟨code, hfirst, .player absent⟩) (World.answers_wait trivial))
    |>.step (.answered (n := 0) (e := storeAnswer code record (.seconds 60) (.ok ())) rfl
      (asks_lookup_iff.2 ⟨code, hfirst, .store absent⟩) (World.answers_wait trivial))
  have begun := missed.step (.begun .scheduled)
    |>.step (.went (i := 0) rfl (.step .start (.check (.ask _ _))) (by simp))
  have reached := begun.step (.tick 5)
    |>.step (.asked " 123456789")
    |>.step (.answered (n := 1) (e := readAnswer code (.ok (some record))) rfl
      (asks_lookup_iff.2 ⟨code, hsecond, .read⟩)
      (World.answers_wait (hlive _).symm))
  obtain ⟨accounted, -⟩ := reached.transparent
  exact ⟨_, reached, rfl, rfl,
    (accounted 0 _ rfl).1 _ (ends_lookup_iff.2 (.inr ⟨code, hfirst, .missed absent⟩)),
    (accounted 1 _ rfl).1 _ (ends_lookup_iff.2 (.inr ⟨code, hsecond, .hit⟩))⟩

end Desk

end Engine

end ContentSync
