import ContentSync.Proofs.Json.ReadBack
import ContentSync.Proofs.Store.TimedMap
import ContentSync.Store.KeyValue

/-!
# A cache on a server as a cache in memory

A cache that is kept by a key-value server writes payloads as texts and lifetimes in whole seconds.
It answers like the map that never drops anything, with the lifetimes rounded, and so like a cache
in memory if they were whole seconds already.

* `TimedServer.after` — the server after a history;
* `CacheStep.rounded` — a step with its lifetime in whole seconds, at least one;
* `TimedServer.Serves`, `TimedServer.serves_after` — the server keeps the texts of the map;
* `CacheStep.Storing` — payloads are written that can be read back;
* `TimedServer.answers_as_cache` — what readers are told.
-/

set_option autoImplicit false

namespace ContentSync

open CacheStep

/-- A key-value server and its clock. -/
structure TimedServer where
  store : KeyValue
  now : Instant

namespace TimedServer

/-- The server after the command of a step. It drops what has expired by itself, so purges and
evictions are no concern of it. -/
def step (s : TimedServer) : CacheStep → TimedServer
  | .write k payload lifetime =>
    { s with store := (s.store.execute s.now (RemoteCache.write k payload lifetime)).2 }
  | .read k => { s with store := (s.store.execute s.now (RemoteCache.read k)).2 }
  | .exist k => { s with store := (s.store.execute s.now (RemoteCache.exist k)).2 }
  | .invalidate k => { s with store := (s.store.execute s.now (RemoteCache.invalidate k)).2 }
  | .purge => s
  | .evict _ _ => s
  | .advance elapsed => { s with now := s.now + elapsed }

/-- The server after a history that begins with nothing stored. -/
def after (start : Instant) (history : List CacheStep) : TimedServer :=
  history.foldl step ⟨.empty, start⟩

/-- What a reader of a key is told. -/
def read (s : TimedServer) (k : CacheKey) : Except Failure (Option Json) :=
  RemoteCache.payload? k (s.store.execute s.now (RemoteCache.read k)).1

/-- What is told who asks whether a key has a payload. -/
def contains (s : TimedServer) (k : CacheKey) : Except Failure Bool :=
  RemoteCache.found k (s.store.execute s.now (RemoteCache.exist k)).1

end TimedServer

namespace CacheStep

/-- The lifetime that the server is told. -/
def roundedLifetime (lifetime : Duration) : Duration := .seconds (RemoteCache.expiry lifetime)

/-- A step with its lifetime in whole seconds, at least one. -/
def rounded : CacheStep → CacheStep
  | write k payload lifetime => write k payload (roundedLifetime lifetime)
  | e => e

/-- The payloads of a history can be read back from their texts. -/
def Storing (history : List CacheStep) : Prop :=
  ∀ k payload lifetime, write k payload lifetime ∈ history →
    payload.Storable Written.nestingLimit

/-- The lifetimes of a history are whole seconds, at least one. -/
def InSeconds (history : List CacheStep) : Prop :=
  ∀ k payload lifetime, write k payload lifetime ∈ history →
    ∃ n, 0 < n ∧ lifetime = .seconds n

theorem roundedLifetime_seconds {n : Nat} (h : 0 < n) :
    roundedLifetime (.seconds n) = .seconds n := by
  have hwhole : (Duration.seconds n).wholeSeconds = n := by
    simp [Duration.seconds, Duration.wholeSeconds, Duration.nanosecondsPerSecond]
  rw [roundedLifetime, RemoteCache.expiry, hwhole, Nat.max_eq_left h]

/-- Whole seconds are rounded to themselves. -/
theorem map_rounded_of_inSeconds {history : List CacheStep} (h : InSeconds history) :
    history.map rounded = history := by
  have hall : ∀ e ∈ history, e.rounded = id e := by
    intro e he
    cases e with
    | write k payload lifetime =>
      obtain ⟨n, hn, rfl⟩ := h k payload lifetime he
      rw [rounded, roundedLifetime_seconds hn]
      rfl
    | _ => rfl
  rw [List.map_congr_left hall, List.map_id]

theorem replaces_rounded (k : CacheKey) (e : CacheStep) : e.rounded.Replaces k ↔ e.Replaces k := by
  cases e <;> exact Iff.rfl

theorem elapsed_map_rounded (history : List CacheStep) :
    elapsed (history.map rounded) = elapsed history := by
  have htime : ∀ e : CacheStep, e.rounded.time = e.time := fun e => by cases e <;> rfl
  induction history with
  | nil => rfl
  | cons e history ih => rw [List.map_cons, elapsed, elapsed, htime, ih]

/-- What was last written in rounded steps was last written, with some lifetime. -/
theorem lastWritten_rounded_iff {history : List CacheStep} {k : CacheKey} {payload : Json}
    {lifetime : Duration} {age : Nat} :
    LastWritten (history.map rounded) k payload lifetime age ↔
      ∃ original, LastWritten history k payload original age ∧
        lifetime = roundedLifetime original := by
  constructor
  · rintro ⟨before, since, heq, hsince, rfl⟩
    obtain ⟨before, rest, rfl, -, hrest⟩ := List.map_eq_append_iff.1 heq
    obtain ⟨e, since, rfl, he, rfl⟩ := List.map_eq_cons_iff.1 hrest
    cases e with
    | write l p original =>
      cases he
      refine ⟨original, ⟨before, since, rfl, fun e he => ?_, (elapsed_map_rounded _).symm⟩, rfl⟩
      exact fun hr => hsince _ (List.mem_map_of_mem he) ((replaces_rounded k e).2 hr)
    | _ => cases he
  · rintro ⟨original, ⟨before, since, rfl, hsince, rfl⟩, rfl⟩
    refine ⟨before.map rounded, since.map rounded, by simp [rounded], fun e hmem => ?_,
      elapsed_map_rounded _⟩
    obtain ⟨e, he, rfl⟩ := List.mem_map.1 hmem
    exact fun hr => hsince e he ((replaces_rounded k e).1 hr)

theorem LastWritten.mem {history : List CacheStep} {k : CacheKey} {payload : Json}
    {lifetime : Duration} {age : Nat} (h : LastWritten history k payload lifetime age) :
    write k payload lifetime ∈ history := by
  obtain ⟨before, since, rfl, -⟩ := h
  exact List.mem_append_right _ List.mem_cons_self

end CacheStep

namespace TimedServer

variable {s : TimedServer} {m : TimedMap} {k : CacheKey} {later : Instant}

/-- The text that a map would keep under a key. -/
def textAt (m : TimedMap) (later : Instant) (k : CacheKey) : Option String :=
  ((m.latest? k).filter fun e => !e.expired later).map (·.payload.compact)

/-- From now on the server has the texts of what the map holds, while it is younger than its
lifetime. -/
structure Serves (s : TimedServer) (m : TimedMap) : Prop where
  now : s.now = m.now
  texts : ∀ k later, s.now ≤ later → s.store.value? later k.text = textAt m later k

theorem serves_empty (start : Instant) : Serves ⟨.empty, start⟩ ⟨fun _ => none, start⟩ :=
  ⟨rfl, fun _ _ _ => rfl⟩

/-- **Whatever happens, the server keeps the texts of the map** whose lifetimes are rounded. -/
theorem Serves.step (h : s.Serves m) (e : CacheStep) : (s.step e).Serves (m.step e.rounded) := by
  obtain ⟨hnow, htexts⟩ := h
  cases e with
  | write k payload lifetime =>
    refine ⟨hnow, fun l later hlater => ?_⟩
    simp only [TimedServer.step, RemoteCache.write] at hlater ⊢
    by_cases hl : l = k
    · subst hl
      rw [KeyValue.value?_setExpiring_self]
      simp only [textAt, TimedMap.step, rounded, Function.update_self, Option.filter_some,
        CacheEntry.expired, roundedLifetime, Duration.seconds, ← hnow,
        Nat.le_sub_iff_add_le' hlater]
      split <;> simp_all
    · have htext : l.text ≠ k.text := fun heq => hl (by cases l; cases k; simpa using heq)
      rw [KeyValue.value?_setExpiring_of_ne _ _ _ htext, htexts l later hlater]
      simp [textAt, TimedMap.step, rounded, hl]
  | read => exact ⟨hnow, htexts⟩
  | exist => exact ⟨hnow, htexts⟩
  | invalidate k =>
    refine ⟨hnow, fun l later hlater => ?_⟩
    simp only [TimedServer.step, RemoteCache.invalidate, KeyValue.execute] at hlater ⊢
    by_cases hl : l = k
    · subst hl
      rw [KeyValue.value?_erase_self]
      simp [textAt, TimedMap.step, rounded]
    · have htext : l.text ≠ k.text := fun heq => hl (by cases l; cases k; simpa using heq)
      rw [KeyValue.value?_erase_of_ne _ _ htext, htexts l later hlater]
      simp [textAt, TimedMap.step, rounded, hl]
  | purge => exact ⟨hnow, htexts⟩
  | evict => exact ⟨hnow, htexts⟩
  | advance elapsed =>
    exact ⟨congrArg (· + elapsed) hnow,
      fun l later hlater => htexts l later (Nat.le_of_add_right_le hlater)⟩

theorem serves_after (start : Instant) (history : List CacheStep) :
    (after start history).Serves (.after start (history.map rounded)) := by
  induction history using List.reverseRecOn with
  | nil => exact serves_empty start
  | append_singleton history e ih =>
    simpa [after, TimedMap.after] using ih.step e

theorem textAt_now (m : TimedMap) (k : CacheKey) :
    textAt m m.now k = (m.live? k).map Json.compact := by
  rw [textAt, TimedMap.live?, Option.map_map]
  rfl

/-- **A reader gets the payload of the map**, if its text can be read back. -/
theorem Serves.read_eq (h : s.Serves m)
    (hstoring : ∀ payload, m.live? k = some payload → payload.Storable Written.nestingLimit) :
    s.read k = .ok (m.live? k) := by
  have htext := h.texts k s.now (Nat.le_refl _)
  rw [h.now, textAt_now, ← h.now] at htext
  simp only [read, RemoteCache.read, KeyValue.execute, htext]
  cases hlive : m.live? k with
  | none => rfl
  | some payload =>
    simp [KeyValue.replyOf, RemoteCache.payload?, Reply.text?,
      (hstoring payload hlive).parse?_compact]

theorem Serves.contains_eq (h : s.Serves m) : s.contains k = .ok (m.live? k).isSome := by
  have htext := h.texts k s.now (Nat.le_refl _)
  rw [h.now, textAt_now, ← h.now] at htext
  simp only [contains, RemoteCache.exist, KeyValue.execute, htext]
  cases m.live? k <;> rfl

/-- **A cache on a server answers like a cache in memory.** After any history of payloads that can
be read back, every read succeeds, and a payload is read if and only if it was last written under
its key, not invalidated since, and less than its lifetime ago, which counts in whole seconds,
rounded down, and as one second at least; existence is answered alike. Where all lifetimes are whole
seconds already, a cache in memory gives every reader the same answers. -/
theorem answers_as_cache (start : Instant) (history : List CacheStep)
    (hstoring : Storing history) :
    (∀ k, ∃ answer, (after start history).read k = .ok answer ∧
      (after start history).contains k = .ok answer.isSome ∧
      ∀ payload, answer = some payload ↔
        ∃ lifetime age, LastWritten history k payload lifetime age ∧
          age < max lifetime.wholeSeconds 1 * Duration.nanosecondsPerSecond) ∧
    (InSeconds history → ∀ k,
      (after start history).read k = .ok ((TimedCache.after start history).read k) ∧
      (after start history).contains k = .ok ((TimedCache.after start history).contains k)) := by
  have hserves := serves_after start history
  have hlive : ∀ k payload,
      (TimedMap.after start (history.map rounded)).live? k = some payload ↔
        ∃ lifetime age, LastWritten history k payload lifetime age ∧
          age < max lifetime.wholeSeconds 1 * Duration.nanosecondsPerSecond := by
    intro k payload
    rw [TimedMap.live?_after_iff]
    constructor
    · rintro ⟨_, age, hrounded, hage⟩
      obtain ⟨lifetime, hwritten, rfl⟩ := lastWritten_rounded_iff.1 hrounded
      exact ⟨lifetime, age, hwritten, hage⟩
    · rintro ⟨lifetime, age, hwritten, hage⟩
      exact ⟨_, age, lastWritten_rounded_iff.2 ⟨lifetime, hwritten, rfl⟩, hage⟩
  have hread : ∀ k, (after start history).read k =
      .ok ((TimedMap.after start (history.map rounded)).live? k) := by
    refine fun k => hserves.read_eq fun payload hpayload => ?_
    obtain ⟨lifetime, age, hwritten, -⟩ := (hlive k payload).1 hpayload
    exact hstoring k payload lifetime hwritten.mem
  refine ⟨fun k => ⟨_, hread k, hserves.contains_eq, hlive k⟩, fun hseconds k => ?_⟩
  have htracks := TimedCache.tracks_after start history
  rw [hread, hserves.contains_eq, map_rounded_of_inSeconds hseconds, TimedCache.read,
    TimedCache.contains, MemoryCache.read_fst, MemoryCache.contains, htracks.live?_eq]
  exact ⟨rfl, rfl⟩

/-- A payload with an escape is written and read a nanosecond before it expires. -/
def sample : List CacheStep :=
  [.write ⟨"player:1"⟩ (.array [.string "\"\n", .number (.integer (-5))]) (.seconds 2),
    .advance 1999999999]

theorem sample_storing : Storing sample := by
  intro k payload lifetime h
  simp only [sample, List.mem_cons, List.not_mem_nil, or_false, reduceCtorEq] at h
  cases h
  refine .array fun v hv => ?_
  simp only [List.mem_cons, List.not_mem_nil, or_false] at hv
  obtain rfl | rfl := hv
  · exact .string _
  · exact .integer (by decide) (by decide)

theorem sample_inSeconds : InSeconds sample := by
  intro k payload lifetime h
  simp only [sample, List.mem_cons, List.not_mem_nil, or_false, reduceCtorEq] at h
  cases h
  exact ⟨2, by decide, rfl⟩

/-- The payload of the sample is read. -/
theorem sample_read : Storing sample ∧ InSeconds sample ∧
    (after 0 sample).read ⟨"player:1"⟩ =
      .ok (some (.array [.string "\"\n", .number (.integer (-5))])) :=
  ⟨sample_storing, sample_inSeconds,
    ((answers_as_cache 0 sample sample_storing).2 sample_inSeconds _).1⟩

end TimedServer

end ContentSync
