import ContentSync.Proofs.Engine.Versions

/-!
# What becomes of the entries of targets

* `Exchange.Touches` — an answer by which an entry is written or removed;
* `World.stored?_after_of_ne`, `World.retains_after` — what an answer leaves of other entries;
* `World.Keeps` — an entry has been kept, with its payload and its expiry;
* `Outside.keeps` — what happens outside of epochs keeps the entries of all targets;
* `Follows.keeps` — an epoch keeps the entries that none of its answers touches;
* `Follows.split` — every answer of an epoch was given by the stores as they were then;
* `Follows.contains` — what has been written lives on until its lifetime has passed.
-/

set_option autoImplicit false

namespace ContentSync

/-- The key of the entry that a call can change. -/
def Call.key? : Call → Option CacheKey
  | read key | write key _ _ | invalidate key => some key
  | metadata | fetch _ _ _ | player _ | versions | commit _ _ | exist _ => none

/-- The entry of a key is written or removed. -/
inductive Exchange.Touches (key : CacheKey) (e : Exchange) : Prop
  | written {payload : Json} {lifetime : Duration}
    (brings : e.Brings (.write key payload lifetime) ())
  | removed (brings : e.Brings (.invalidate key) ())

namespace MemoryCache

variable {c : MemoryCache} {k l : CacheKey}

theorem stored?_read_of_ne (c : MemoryCache) (now : Instant) (h : l ≠ k) :
    (c.read now k).2.stored? l = c.stored? l := by
  unfold MemoryCache.read
  cases c.stored? k with
  | none => rfl
  | some e => by_cases he : e.expired now <;> simp [he, stored?_erase_of_ne c h]

/-- What a key will have later it has before. -/
theorem contains_of_le {now later : Instant} (h : c.contains later k = true) (hle : now ≤ later) :
    c.contains now k = true := by
  simp only [contains, live?] at h ⊢
  cases hstored : c.stored? k with
  | none => simp [hstored] at h
  | some e =>
    have hlive : ¬ e.expired now = true := fun he => by
      simp [hstored, expired_mono he hle] at h
    simp [hlive]

/-- What is retained of what was retained. -/
theorem Retains.trans {b c : MemoryCache} {now later : Instant} {entry : Option CacheEntry}
    (hb : b.Retains now k entry) (hc : c.Retains later k (b.stored? k)) (hle : now ≤ later) :
    c.Retains later k entry := by
  obtain heq | ⟨e, rfl, he, hnone⟩ := hb
  · rwa [heq] at hc
  · rw [hnone] at hc
    obtain heq | ⟨_, heq, -⟩ := hc
    · exact .inr ⟨e, rfl, expired_mono he hle, heq⟩
    · cases heq

end MemoryCache

namespace Engine

variable {p : SyncPolicy} {trigger : Trigger} {t u : List Moment} {s : Situation}
  {start w w' : World} {e : Exchange} {key : CacheKey}

theorem touch?_eq_none (hn : ¬ e.Touches key) (now : Instant) {c : Call} (hc : e.done? = some c) :
    touch? now key c = none := by
  obtain ⟨x, hb⟩ := Exchange.exists_of_done? hc
  cases c with
  | write k payload lifetime =>
    have hne : k ≠ key := by
      rintro rfl
      exact hn (.written hb)
    simp [touch?, hne]
  | invalidate k =>
    have hne : k ≠ key := by
      rintro rfl
      exact hn (.removed hb)
    simp [touch?, hne]
  | metadata | fetch | player | versions | commit | read | exist => rfl

/-! ## One answer -/

namespace World

/-- An answer leaves the entries of all other keys alone. -/
theorem stored?_after_of_ne (hne : ∀ c, e.done? = some c → c.key? ≠ some key) :
    (w.after e).cache.stored? key = w.cache.stored? key := by
  cases hdone : e.done? with
  | none => simp [World.after, hdone]
  | some c =>
    have hkey := hne c hdone
    cases c with
    | read k =>
      simpa [World.after, hdone, World.apply] using
        w.cache.stored?_read_of_ne w.now fun heq => hkey (congrArg some heq.symm)
    | write k payload lifetime =>
      simpa [World.after, hdone, World.apply] using
        w.cache.stored?_write_of_ne w.now (fun heq => hkey (congrArg some heq.symm)) payload lifetime
    | invalidate k =>
      simpa [World.after, hdone, World.apply, MemoryCache.invalidate] using
        w.cache.stored?_erase_of_ne fun heq => hkey (congrArg some heq.symm)
    | metadata | fetch | player | versions | commit | exist =>
      simp [World.after, hdone, World.apply]

/-- **An answer that does not touch a key retains its entry.** A read may drop one that has
expired. -/
theorem retains_after (hn : ¬ e.Touches key) :
    (w.after e).cache.Retains w.now key (w.cache.stored? key) := by
  by_cases hread : e.done? = some (.read key)
  · simpa [World.after, hread, World.apply] using
      (w.cache.retains_stored w.now key).read key
  · refine .inl (stored?_after_of_ne fun c hc hkey => ?_)
    obtain ⟨x, hb⟩ := Exchange.exists_of_done? hc
    cases c with
    | read k =>
      obtain rfl := Option.some.inj hkey
      exact hread hc
    | write k payload lifetime =>
      obtain rfl := Option.some.inj hkey
      exact hn (.written hb)
    | invalidate k =>
      obtain rfl := Option.some.inj hkey
      exact hn (.removed hb)
    | metadata | fetch | player | versions | commit | exist => cases hkey

theorem distinct_after (hd : w.cache.Distinct) : (w.after e).cache.Distinct := by
  cases hdone : e.done? with
  | none => simpa [World.after, hdone] using hd
  | some c =>
    cases c with
    | read k => simpa [World.after, hdone, World.apply] using hd.read w.now k
    | write k payload lifetime =>
      simpa [World.after, hdone, World.apply] using hd.write w.now k payload lifetime
    | invalidate k =>
      simpa [World.after, hdone, World.apply, MemoryCache.invalidate] using hd.erase k
    | metadata | fetch | player | versions | commit | exist =>
      simpa [World.after, hdone, World.apply] using hd

/-! ## Entries that are kept -/

/-- Between two worlds, the entry of a key has been kept, or has expired and was dropped. -/
structure Keeps (start w : World) (key : CacheKey) : Prop where
  now_le : start.now ≤ w.now
  distinct : w.cache.Distinct
  retained : w.cache.Retains w.now key (start.cache.stored? key)
  touch_eq : w.lastTouch key = start.lastTouch key

theorem keeps_self (hd : w.cache.Distinct) (key : CacheKey) : w.Keeps w key :=
  ⟨Nat.le_refl _, hd, w.cache.retains_stored w.now key, rfl⟩

theorem Keeps.trans {w'' : World} (hk : w.Keeps w' key) (hk' : w'.Keeps w'' key) :
    w.Keeps w'' key :=
  ⟨Nat.le_trans hk.now_le hk'.now_le, hk'.distinct, hk.retained.trans hk'.retained hk'.now_le,
    hk'.touch_eq.trans hk.touch_eq⟩

/-- Readers see the same of an entry that is kept. -/
theorem Keeps.live?_eq (hk : start.Keeps w key) {later : Instant} (hle : w.now ≤ later) :
    w.cache.live? later key = start.cache.live? later key := by
  rw [hk.retained.live?_eq hle, (start.cache.retains_stored start.now key).live?_eq
    (Nat.le_trans hk.now_le hle)]

theorem keeps_after (hd : w.cache.Distinct) (hn : ¬ e.Touches key) : w.Keeps (w.after e) key where
  now_le := Nat.le_of_eq now_after.symm
  distinct := distinct_after hd
  retained := by
    rw [now_after]
    exact retains_after hn
  touch_eq := lastTouch_after_of_none fun _ => touch?_eq_none hn w.now

end World

/-! ## Epochs -/

/-- A lookup does nothing to the entries of targets. -/
theorem not_touches_of_lookup {lifetime : Duration} {raw : String} {h : List Exchange}
    (asks : (lookup lifetime raw).Asks h e.request) (target : FetchTarget) (v : Version) :
    ¬ e.Touches (target.key v) := by
  intro touches
  obtain ⟨code, hasks⟩ := asks_lookup asks
  cases touches with
  | removed brings =>
    have hcall := brings.call?
    obtain heq | heq | ⟨record, heq⟩ := hasks <;>
    · rw [heq] at hcall
      cases hcall
  | written brings =>
    have hcall := brings.call?
    obtain heq | heq | ⟨record, heq⟩ := hasks
    · rw [heq] at hcall
      cases hcall
    · rw [heq] at hcall
      cases hcall
    · rw [heq] at hcall
      exact FetchTarget.key_ne_ofPlayer target v code
        (Call.write.inj (Option.some.inj hcall)).1.symm

theorem Outside.keeps (step : Outside w w') (hd : w.cache.Distinct) (target : FetchTarget)
    (v : Version) : w.Keeps w' (target.key v) := by
  cases step with
  | tick length =>
    refine ⟨Nat.le_add_right _ _, hd, ?_, rfl⟩
    exact (w.cache.retains_stored w.now _).of_le (Nat.le_add_right _ _)
  | purge => exact ⟨Nat.le_refl _, hd.purge w.now, (w.cache.retains_stored w.now _).purge hd, rfl⟩
  | lookup asks answers => exact World.keeps_after hd (not_touches_of_lookup asks target v)

/-- **An epoch keeps the entries that none of its answers touches.** -/
theorem Follows.keeps (follows : Follows start t w) (hd : start.cache.Distinct)
    {target : FetchTarget} {v : Version}
    (hn : ∀ worker e, Moment.answered worker e ∈ t → ¬ e.Touches (target.key v)) :
    start.Keeps w (target.key v) := by
  induction follows with
  | start => exact World.keeps_self hd _
  | outside _ step ih =>
    have hkept := ih hn
    exact hkept.trans (step.keeps hkept.distinct target v)
  | answered _ _ ih =>
    have hkept := ih fun worker e he => hn worker e (List.mem_append_left _ he)
    exact hkept.trans (World.keeps_after hkept.distinct (hn _ _ (List.mem_append_right _ List.mem_cons_self)))
  | other _ _ ih => exact ih fun worker e he => hn worker e (List.mem_append_left _ he)

/-- Every answer of an epoch was given by the stores as they were then, and logged. -/
theorem Follows.split {worker : Worker}
    (follows : Follows start (t ++ .answered worker e :: u) w) :
    ∃ w', Follows start t w' ∧ w'.Answers e ∧ w'.now ≤ w.now ∧
      ∃ log, w.log = log ++ (w'.now, e) :: w'.log := by
  generalize hv : t ++ .answered worker e :: u = v at follows
  induction follows generalizing u with
  | start => simp at hv
  | outside _ step ih =>
    obtain ⟨w', hfollows, hanswers, hle, log, hlog⟩ := ih hv
    obtain ⟨log', hlog'⟩ := step.log_eq
    exact ⟨w', hfollows, hanswers, Nat.le_trans hle step.now_le, log' ++ log,
      by rw [hlog', hlog, List.append_assoc]⟩
  | @answered v w worker' e' follows answers ih =>
    obtain rfl | ⟨u, m, rfl⟩ := u.eq_nil_or_concat
    · obtain ⟨rfl, hm⟩ := List.append_inj' hv rfl
      cases hm
      exact ⟨w, follows, answers, Nat.le_of_eq World.now_after.symm, [], rfl⟩
    · rw [List.concat_eq_append, ← List.cons_append, ← List.append_assoc] at hv
      obtain ⟨w', hfollows, hanswers, hle, log, hlog⟩ := ih (List.append_inj' hv rfl).1
      exact ⟨w', hfollows, hanswers, by rwa [World.now_after], (w.now, e') :: log,
        by rw [World.log_after, hlog]; rfl⟩
  | @other v w m follows silent ih =>
    obtain rfl | ⟨u, m, rfl⟩ := u.eq_nil_or_concat
    · obtain ⟨-, hm⟩ := List.append_inj' hv rfl
      exact absurd (List.cons.inj hm).1.symm (silent worker e)
    · rw [List.concat_eq_append, ← List.cons_append, ← List.append_assoc] at hv
      exact ih (List.append_inj' hv rfl).1

/-! ## What lives on -/

/-- What has been logged since an earlier world. -/
def World.since (start w : World) : List (Instant × Exchange) :=
  w.log.take (w.log.length - start.log.length)

theorem World.since_eq {log : List (Instant × Exchange)} (h : w.log = log ++ start.log) :
    World.since start w = log := by
  simp [World.since, h]

theorem Follows.log_eq (follows : Follows start t w) :
    w.log = World.since start w ++ start.log := by
  suffices h : ∃ log, w.log = log ++ start.log by
    obtain ⟨log, hlog⟩ := h
    rw [World.since_eq hlog, hlog]
  induction follows with
  | start => exact ⟨[], rfl⟩
  | outside _ step ih =>
    obtain ⟨log, hlog⟩ := ih
    obtain ⟨log', hlog'⟩ := step.log_eq
    exact ⟨log' ++ log, by rw [hlog', hlog, List.append_assoc]⟩
  | answered _ _ ih =>
    obtain ⟨log, hlog⟩ := ih
    exact ⟨_ :: log, by rw [World.log_after, hlog]; rfl⟩
  | other _ _ ih => exact ih

theorem Follows.since_append (follows : Follows start t w) {log : List (Instant × Exchange)}
    (h : w'.log = log ++ w.log) : World.since start w' = log ++ World.since start w := by
  apply World.since_eq
  rw [h, List.append_assoc, ← follows.log_eq]

theorem Follows.distinct (follows : Follows start t w) (hd : start.cache.Distinct) :
    w.cache.Distinct := by
  induction follows with
  | start => exact hd
  | outside _ step ih => exact (step.keeps ih .localization default).distinct
  | answered _ _ ih => exact World.distinct_after ih
  | other _ _ ih => exact ih

/-- **What was there, or has been written, lives on until its lifetime has passed**, unless it is
removed. -/
theorem Follows.contains (follows : Follows start t w) (hd : start.cache.Distinct)
    {target : FetchTarget} {v : Version} {later : Instant} (hle : w.now ≤ later)
    (hlast : ∀ d ∈ World.since start w, ∀ payload lifetime,
      d.2.Brings (.write (target.key v) payload lifetime) () → later - d.1 < lifetime.nanoseconds)
    (hn : ¬ Brought t (.invalidate (target.key v)) ())
    (hlives : start.cache.contains later (target.key v) = true ∨
      ∃ payload lifetime, Brought t (.write (target.key v) payload lifetime) ()) :
    w.cache.contains later (target.key v) = true := by
  induction follows with
  | start =>
    obtain hlives | ⟨_, _, _, _, he, -⟩ := hlives
    · exact hlives
    · cases he
  | outside follows step ih =>
    obtain ⟨log, hlog⟩ := step.log_eq
    have hbefore := ih (Nat.le_trans step.now_le hle) (fun d hmem => hlast d (by
      rw [follows.since_append hlog]
      exact List.mem_append_right _ hmem)) hn hlives
    rw [MemoryCache.contains, (step.keeps (follows.distinct hd) target v).live?_eq hle]
    exact hbefore
  | @answered t w worker e follows answers ih =>
    have hsince : World.since start (w.after e) = (w.now, e) :: World.since start w :=
      follows.since_append (show (w.after e).log = [(w.now, e)] ++ w.log from rfl)
    by_cases htouch : e.Touches (target.key v)
    · cases htouch with
      | removed brings => exact absurd (brought_append_answered.2 (.inr brings)) hn
      | @written payload lifetime brings =>
        have hlt := hlast (w.now, e) (by simp [hsince]) payload lifetime brings
        have hcache : (w.after e).cache = w.cache.write w.now (target.key v) payload lifetime := by
          simp [World.after, brings.done?, World.apply]
        rw [MemoryCache.contains, hcache, MemoryCache.live?_write_self, if_neg (Nat.not_le.2 hlt)]
        rfl
    · rw [World.now_after] at hle
      have hlives' : start.cache.contains later (target.key v) = true ∨
          ∃ payload lifetime, Brought t (.write (target.key v) payload lifetime) () := by
        refine hlives.imp_right ?_
        rintro ⟨payload, lifetime, hb⟩
        exact ⟨payload, lifetime, (brought_append_answered.1 hb).resolve_right fun brings =>
          htouch (.written brings)⟩
      have hbefore := ih hle (fun d hmem => hlast d (by simp [hsince, hmem]))
        (fun hb => hn hb.append) hlives'
      rw [MemoryCache.contains, (World.keeps_after (follows.distinct hd) htouch).live?_eq (by simpa)]
      exact hbefore
  | other _ silent ih =>
    refine ih hle hlast (fun hb => hn hb.append) (hlives.imp_right ?_)
    rintro ⟨payload, lifetime, hb⟩
    exact ⟨payload, lifetime, (brought_append_other silent).1 hb⟩

end Engine

end ContentSync
