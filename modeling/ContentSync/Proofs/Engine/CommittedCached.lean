import ContentSync.Proofs.Engine.Solo
import ContentSync.Proofs.Engine.Versions

/-!
# What is committed is cached

Whatever versions are advertised in whichever order, whatever fails and whenever epochs are
cancelled: for every target of a committed version, the last thing that was done to its key was to
write a payload that the content service returned for it.

* `World.Cached` — this holds of the stores;
* `Upkeep` — what an epoch keeps with every moment;
* `Follows.upkeep` — every run preserves it, by induction on its moments;
* `History.committed_cached` — it holds over every history, and readers see the payload until its
  lifetime has passed.
-/

set_option autoImplicit false

namespace ContentSync

namespace Engine

open Program

variable {p : SyncPolicy} {trigger : Trigger} {t u : List Moment} {s : Situation}
  {start w w' : World}

/-- Every target of a committed version is held. -/
def World.Cached (p : SyncPolicy) (w : World) : Prop :=
  ∀ kind v, w.versions.get kind = some v → ∀ target ∈ p.targets kind, w.Holds p target v

/-- What an epoch keeps with every moment. -/
structure Upkeep (p : SyncPolicy) (start : World) (t : List Moment) (w : World) : Prop where
  cached : w.Cached p
  logged : ∀ worker e, Moment.answered worker e ∈ t → ∃ d ∈ w.log, d.2 = e
  /-- A kind keeps its version until it is committed. -/
  unchanged : ∀ kind, (∀ v, ¬ Brought t (.commit kind v) ()) →
    w.versions.get kind = start.versions.get kind
  committed : ∀ kind v, Brought t (.commit kind v) () → w.versions.get kind = some v
  /-- The epoch was told the versions from before it. -/
  told : ∀ stored, Brought t .versions stored → stored = start.versions
  /-- What the epoch has written is held until the epoch removes it. -/
  written : ∀ target v payload lifetime,
    Brought t (.write (FetchTarget.key target v) payload lifetime) () →
    ¬ Brought t (.invalidate (FetchTarget.key target v)) () → w.Holds p target v

/-! ## Lookups -/

/-- What happens outside of epochs leaves the versions and the keys of targets alone. -/
theorem Outside.holds (step : Outside w w') {target : FetchTarget} {v : Version}
    (hh : w.Holds p target v) : w'.Holds p target v := by
  cases step with
  | tick => exact hh
  | purge => exact hh
  | @lookup lifetime raw h e asks answers =>
    refine hh.after fun c hc => ?_
    obtain ⟨x, hb⟩ := Exchange.exists_of_done? hc
    obtain ⟨code, heq | heq | ⟨record, heq⟩⟩ := asks_lookup asks
    · cases hb <;> cases heq
      rfl
    · cases hb <;> cases heq
      rfl
    · cases hb <;> cases heq
      simp [touch?, (FetchTarget.key_ne_ofPlayer target v code).symm]

theorem Outside.cached (step : Outside w w') (hc : w.Cached p) : w'.Cached p := by
  intro kind v hv target ht
  rw [step.versions_eq] at hv
  exact step.holds (hc kind v hv target ht)

theorem Upkeep.tracked (hp : Upkeep p start t w) : Tracked start t w :=
  ⟨hp.unchanged, hp.committed, hp.told⟩

theorem Upkeep.outside (hp : Upkeep p start t w) (step : Outside w w') :
    Upkeep p start t w' where
  cached := step.cached hp.cached
  logged worker e he := by
    obtain ⟨d, hd, heq⟩ := hp.logged worker e he
    obtain ⟨log, hlog⟩ := step.log_eq
    exact ⟨d, by rw [hlog]; exact List.mem_append_right _ hd, heq⟩
  unchanged := (hp.tracked.outside step).unchanged
  committed := (hp.tracked.outside step).committed
  told := hp.told
  written target v payload lifetime hb hn := step.holds (hp.written target v payload lifetime hb hn)

/-! ## What the answers of an epoch can be -/

section

variable {worker : Worker} {e : Exchange}

/-- A payload that is written has been fetched. -/
theorem Run.fetched_of_write (run : Run p trigger (t ++ .answered worker e :: u) s)
    {key : CacheKey} {payload : Json} {lifetime : Duration}
    (hb : e.Brings (.write key payload lifetime) ()) :
    ∃ target v, key = FetchTarget.key target v ∧ Brought t (.fetch target v p.unzip) payload := by
  obtain ⟨rfl, epoch, jobs, results, r, l, f, d, c, hp, -, hf, hkind, hpayload, rfl, -⟩ :=
    run.asked_write (.answered e.answer) hb.call?
  obtain ⟨s₁, run₁, -⟩ := run.split
  exact ⟨f.target, r.newVersion, rfl, (hp.fetched run₁ hf hkind hpayload).2⟩

/-- What has been removed was removed after a commit. -/
theorem Run.committed_of_removed (run : Run p trigger t s) {target : FetchTarget} {v : Version}
    (hb : Brought t (.invalidate (target.key v)) ()) :
    ∃ v', Brought t (.commit target.kind v') () := by
  obtain ⟨worker, e, he, hb⟩ := hb
  obtain ⟨t₁, t₂, rfl⟩ := List.append_of_mem he
  obtain ⟨target', _, v', hkey, -, hcommit⟩ :=
    run.committed_of_invalidate (.answered e.answer) hb.call?
  obtain ⟨rfl, -⟩ := FetchTarget.key_inj hkey
  exact ⟨v', hcommit.append⟩

end

/-! ## What an epoch preserves -/

section

variable {worker : Worker} {e : Exchange}

/-- What an epoch has been told was returned. -/
theorem Upkeep.returned (hp : Upkeep p start t w) {target : FetchTarget} {v : Version}
    {payload : Json} (hb : Brought t (.fetch target v p.unzip) payload) :
    w.Returned p target v payload := by
  obtain ⟨worker, e, he, hb⟩ := hb
  obtain ⟨d, hd, rfl⟩ := hp.logged worker e he
  exact ⟨d, hd, hb⟩

/-- After a write, what was written is held. -/
theorem Upkeep.holds_of_write (hp : Upkeep p start t w)
    (run : Run p trigger (t ++ .answered worker e :: u) s) {target : FetchTarget} {v : Version}
    {payload : Json} {lifetime : Duration}
    (hb : e.Brings (.write (target.key v) payload lifetime) ()) :
    (w.after e).Holds p target v := by
  obtain ⟨target', v', hkey, hfetched⟩ := run.fetched_of_write hb
  obtain ⟨rfl, rfl⟩ := FetchTarget.key_inj hkey
  refine ⟨w.now, payload, lifetime, ?_, (hp.returned hfetched).after⟩
  simp [World.lastTouch_after, hb.done?, touch?]

/-- What is held stays held, or is written anew, unless it is removed. -/
theorem Upkeep.holds_after (hp : Upkeep p start t w)
    (run : Run p trigger (t ++ .answered worker e :: u) s) {target : FetchTarget} {v : Version}
    (hh : w.Holds p target v) (hkept : ¬ e.Brings (.invalidate (target.key v)) ()) :
    (w.after e).Holds p target v := by
  by_cases hwrite : ∃ payload lifetime, e.Brings (.write (target.key v) payload lifetime) ()
  · obtain ⟨payload, lifetime, hb⟩ := hwrite
    exact hp.holds_of_write run hb
  · refine hh.after fun c hc => ?_
    obtain ⟨x, hb⟩ := Exchange.exists_of_done? hc
    cases c with
    | write key payload lifetime =>
      have hne : key ≠ target.key v := by
        rintro rfl
        exact hwrite ⟨payload, lifetime, hb⟩
      simp [touch?, hne]
    | invalidate key =>
      have hne : key ≠ target.key v := by
        rintro rfl
        exact hkept hb
      simp [touch?, hne]
    | metadata | fetch | player | versions | commit | read | exist => rfl

/-- When a version is committed, all its targets are held. -/
theorem Upkeep.holds_of_commit (hp : Upkeep p start t w)
    (run : Run p trigger (t ++ .answered worker e :: u) s) {kind : DataKind} {v : Version}
    (hb : e.Brings (.commit kind v) ()) {target : FetchTarget} (ht : target ∈ p.targets kind) :
    w.Holds p target v := by
  obtain ⟨jobs, metadata, stored, hselected, hwritten⟩ :=
    run.selected_of_commit (.answered e.answer) hb.call?
  have hfirst := run.not_brought_of_commit hb
  have hkind := SyncPolicy.kind_of_mem_targets ht
  by_cases hsame : stored.get kind = some v
  · -- The version was committed before the epoch, so nothing has happened to its targets since.
    refine hp.cached kind v ?_ target ht
    rw [hp.unchanged kind hfirst, ← hp.told stored ((hselected.committed stored).2 rfl)]
    exact hsame
  · have hjob : (target, v) ∈ jobs :=
      (hselected.mem_jobs target v hkind).2 ⟨rfl, ht, fun heq => absurd heq hsame⟩
    obtain ⟨payload, -, hwrite⟩ := hwritten target hkind hjob
    refine hp.written target v payload _ hwrite fun hremoved => ?_
    obtain ⟨s₁, run₁, -⟩ := run.split
    obtain ⟨v', hcommit⟩ := run₁.committed_of_removed hremoved
    rw [hkind] at hcommit
    exact hfirst v' hcommit

/-- **An answer preserves the upkeep of an epoch.** -/
theorem Upkeep.answered (hp : Upkeep p start t w)
    (run : Run p trigger (t ++ .answered worker e :: u) s) (ha : w.Answers e) :
    Upkeep p start (t ++ [.answered worker e]) (w.after e) where
  cached := by
    intro kind v hv target ht
    by_cases hcommit : ∃ v', e.Brings (.commit kind v') ()
    · obtain ⟨v', hb⟩ := hcommit
      rw [versions_after_of_commit hb, StoredVersions.get_set_self] at hv
      obtain rfl := Option.some.inj hv
      refine hp.holds_after run (hp.holds_of_commit run hb ht) fun hremoved => ?_
      have hcall := hb.call?
      rw [hremoved.call?] at hcall
      cases hcall
    · rw [versions_after_of_ne fun v' hb => hcommit ⟨v', hb⟩] at hv
      refine hp.holds_after run (hp.cached kind v hv target ht) fun hremoved => ?_
      -- What is removed belongs to another version than the committed one.
      obtain ⟨target', v₁, v₂, hkey, hne, hbrought⟩ :=
        run.committed_of_invalidate (.answered e.answer) hremoved.call?
      obtain ⟨rfl, rfl⟩ := FetchTarget.key_inj hkey
      rw [SyncPolicy.kind_of_mem_targets ht] at hbrought
      rw [hp.committed kind v₂ hbrought] at hv
      exact hne (Option.some.inj hv).symm
  logged := by
    intro worker' e' he
    simp only [List.mem_append, List.mem_singleton, Moment.answered.injEq] at he
    obtain he | ⟨-, rfl⟩ := he
    · obtain ⟨d, hd, heq⟩ := hp.logged worker' e' he
      exact ⟨d, List.mem_cons_of_mem _ hd, heq⟩
    · exact ⟨_, List.mem_cons_self, rfl⟩
  unchanged := (hp.tracked.answered run ha).unchanged
  committed := (hp.tracked.answered run ha).committed
  told := (hp.tracked.answered run ha).told
  written := by
    intro target v payload lifetime hb hkept
    have hnow : ¬ e.Brings (.invalidate (target.key v)) () := fun hb =>
      hkept (brought_append_answered.2 (.inr hb))
    obtain hb | hb := brought_append_answered.1 hb
    · exact hp.holds_after run (hp.written target v payload lifetime hb fun hremoved =>
        hkept (brought_append_answered.2 (.inl hremoved))) hnow
    · exact hp.holds_of_write run hb

theorem Upkeep.other {m : Moment} (hp : Upkeep p start t w) (hm : ∀ w e, m ≠ .answered w e) :
    Upkeep p start (t ++ [m]) w where
  cached := hp.cached
  logged := by
    intro worker e he
    simp only [List.mem_append, List.mem_singleton] at he
    obtain he | rfl := he
    · exact hp.logged worker e he
    · exact absurd rfl (hm worker e)
  unchanged := (hp.tracked.other hm).unchanged
  committed := (hp.tracked.other hm).committed
  told := (hp.tracked.other hm).told
  written := by
    intro target v payload lifetime hb hkept
    exact hp.written target v payload lifetime ((brought_append_other hm).1 hb) fun hremoved =>
      hkept ((brought_append_other hm).2 hremoved)

theorem upkeep_start (hc : start.Cached p) : Upkeep p start [] start where
  cached := hc
  logged := by simp
  unchanged := (tracked_start start).unchanged
  committed := (tracked_start start).committed
  told := (tracked_start start).told
  written := by
    rintro target v payload lifetime ⟨_, _, he, -⟩
    cases he

/-- **Every run preserves the upkeep of its epoch.** -/
theorem Follows.upkeep (follows : Follows start t w) (hc : start.Cached p)
    (run : Run p trigger (t ++ u) s) : Upkeep p start t w := by
  induction follows generalizing u with
  | start => exact upkeep_start hc
  | outside _ step ih => exact (ih run).outside step
  | answered _ answers ih =>
    rw [List.append_assoc, List.singleton_append] at run
    exact (ih run).answered run answers
  | other _ silent ih =>
    rw [List.append_assoc] at run
    exact (ih run).other silent

/-- **What is committed is cached.** -/
theorem History.cached (history : History p w) : w.Cached p := by
  induction history with
  | cold now =>
    intro kind v hv
    cases kind <;> cases hv
  | outside _ step ih => exact step.cached ih
  | epoch _ run follows ih =>
    rename_i t s _
    exact (follows.upkeep ih (u := []) (by simpa using run)).cached

/-- **What is committed is cached.** In every state of every history, the last thing that was done to
the key of a target of a committed version was to write a payload that the content service returned
for it, and this is what readers see until its lifetime has passed. -/
theorem History.committed_cached (history : History p w) {kind : DataKind} {v : Version}
    (hv : w.versions.get kind = some v) {target : FetchTarget} (ht : target ∈ p.targets kind) :
    ∃ instant payload lifetime,
      w.lastTouch (target.key v) = some (.written instant payload lifetime) ∧
      w.Returned p target v payload ∧
      (w.cache.read w.now (target.key v)).1 =
        if lifetime.nanoseconds ≤ w.now - instant then none else some payload := by
  obtain ⟨instant, payload, lifetime, htouch, hreturned⟩ := history.cached kind v hv target ht
  refine ⟨instant, payload, lifetime, htouch, hreturned, ?_⟩
  rw [MemoryCache.read_fst, history.sound.live?_eq _ _ (Nat.le_refl _), World.visible, htouch]

/-- After a smooth first epoch the game data is committed and can be read. -/
theorem History.committed_cached_fullOnly :
    ∃ w, History .fullOnly w ∧ w.versions.get .gameData = some ⟨"2"⟩ ∧
      ∃ instant payload lifetime,
        w.lastTouch ((FetchTarget.gameData .full).key ⟨"2"⟩) =
          some (.written instant payload lifetime) ∧
        w.Returned .fullOnly (.gameData .full) ⟨"2"⟩ payload ∧
        (w.cache.read w.now ((FetchTarget.gameData .full).key ⟨"2"⟩)).1 =
          if lifetime.nanoseconds ≤ w.now - instant then none else some payload := by
  let played := (Conduct.smooth ⟨⟨"2"⟩, ⟨"1"⟩⟩ .cold (.object []) fun _ => false).play
    .fullOnly .manual false
  have run : Run .fullOnly .manual played.history (.ended played.result) := Conduct.play_run false
  have hversions : ((World.cold 0).follow? played.history).map (·.versions) =
      some ⟨some ⟨"2"⟩, some ⟨"1"⟩⟩ := by
    decide +kernel
  obtain ⟨w, hfollow, hversions⟩ := Option.map_eq_some_iff.1 hversions
  have history : History .fullOnly w := (History.cold 0).epoch run (World.follows_of_start hfollow)
  have hv : w.versions.get .gameData = some ⟨"2"⟩ := by rw [hversions]; rfl
  exact ⟨w, history, hv, History.committed_cached history hv (by decide)⟩

end

end Engine

end ContentSync
