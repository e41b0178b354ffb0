import ContentSync.Proofs.Engine.Footprint

/-!
# What a success leaves behind

* `Outcome.committed_of_success` — every kind that a successful epoch reports was committed;
* `Achieved` / `Run.achieved` — what has happened in an epoch that has succeeded or is unchanged;
* `Achieved.versions_eq` — the advertised versions are committed;
* `Secured` / `Achieved.secured` — every target of them was written, or found in the cache;
* `Run.settled`, `Settled.eq_nil_iff` — when an epoch that knows the versions is unchanged;
* `Unchanged` / `Run.unchanged` — an unchanged epoch has done nothing but look.
-/

set_option autoImplicit false

namespace ContentSync

/-- An epoch succeeds when every kind it reports was committed. -/
theorem Outcome.committed_of_success {kinds : List KindReport}
    (h : Outcome.decide kinds = .success) : ∀ r ∈ kinds, r.committed = true := by
  simp only [Outcome.decide] at h
  split at h
  · cases h
  split at h
  · cases h
  split at h
  · rename_i hall
    exact List.all_eq_true.1 hall
  · split at h <;> cases h

theorem Outcome.eq_nil_of_unchanged {kinds : List KindReport}
    (h : Outcome.decide kinds = .unchanged) : kinds = [] := by
  simp only [Outcome.decide] at h
  split at h
  · rename_i hnil
    exact List.isEmpty_iff.1 hnil
  · repeat split at h <;> try cases h

namespace Engine

open Program

variable {p : SyncPolicy} {trigger : Trigger} {t : List Moment} {s : Situation} {epoch : Epoch}
  {m : Metadata} {stored : StoredVersions} {sels : List Selection} {results : List Fetched}
  {start w : World}

/-- An epoch that has completed its kinds is not unchanged. -/
theorem Completed.ne_unchanged (hc : Completed p t epoch sels results) :
    epoch.outcome ≠ some .unchanged := by
  intro h
  rw [hc.outcome_eq] at h
  split at h
  · cases h
  · have hnil := hc.kinds_eq
    rw [Outcome.eq_nil_of_unchanged (Option.some.inj h)] at hnil
    exact hc.ne_nil (List.map_eq_nil_iff.1 hnil.symm)

theorem Completed.committed_of_success (hc : Completed p t epoch sels results)
    (h : epoch.outcome = some .success) : ∀ r ∈ epoch.kinds, r.committed = true := by
  rw [hc.outcome_eq] at h
  split at h
  · cases h
  · exact Outcome.committed_of_success (Option.some.inj h)

/-! ## Versions and targets -/

/-- The payload that was fetched for a target has been written. -/
def Renewed (p : SyncPolicy) (t : List Moment) (target : FetchTarget) (v : Version) : Prop :=
  ∃ payload, Brought t (.fetch target v p.unzip) payload ∧
    Brought t (.write (target.key v) payload (p.lifetime target.kind)) ()

/-- The payload of a target was written, or found in the cache. -/
def Secured (p : SyncPolicy) (t : List Moment) (target : FetchTarget) (v : Version) : Prop :=
  Renewed p t target v ∨ Brought t (.exist (target.key v)) true

/-- Every lookup of an epoch brought something. -/
def LooksWell (t : List Moment) : Prop :=
  ∀ e ∈ exchanges .epoch t, ∀ key, e.request.call? = some (.exist key) →
    ∃ found, e.Brings (.exist key) found

/-- An epoch was told the versions, and has renewed and committed every kind that it had selected for
them. -/
structure Achieved (p : SyncPolicy) (t : List Moment) (m : Metadata) (stored : StoredVersions)
    (sels : List Selection) : Prop extends Settled p t m stored sels where
  renewed : ∀ sel ∈ sels, ∀ target ∈ sel.targets, Renewed p t target sel.advertised
  commits : ∀ sel ∈ sels, Brought t (.commit sel.kind sel.advertised) ()
  /-- No other kind was committed. -/
  spared : ∀ kind, kind ∉ sels.map (·.kind) → ∀ v, ¬ Brought t (.commit kind v) ()

/-- **What has happened in an epoch that has succeeded or is unchanged.** -/
theorem Run.achieved (run : Run p trigger t (.ended epoch))
    (h : epoch.outcome = some .success ∨ epoch.outcome = some .unchanged) :
    ∃ m stored sels, Achieved p t m stored sels := by
  have hspared : ∀ {sels : List Selection}, epoch.kinds.map (·.kind) = sels.map (·.kind) →
      ∀ kind, kind ∉ sels.map (·.kind) → ∀ v, ¬ Brought t (.commit kind v) () := by
    intro sels heq kind hkind v hb
    obtain ⟨r, hr, rfl, -⟩ := run.committed_of_brought hb
    exact hkind (heq ▸ List.mem_map_of_mem hr)
  cases run.closed with
  | failed _ outcome_eq => simp [outcome_eq] at h
  | idle kinds_eq _ settled =>
    exact ⟨_, _, [], settled, nofun, nofun, hspared (by rw [kinds_eq]; rfl)⟩
  | completed settled completed =>
    have hcommitted := completed.committed_of_success (h.resolve_right completed.ne_unchanged)
    refine ⟨_, _, _, settled, fun sel hsel target ht => ?_, fun sel hsel => ?_,
      hspared completed.kinds_eq⟩
    · obtain ⟨report, hr, k, hp⟩ := completed.reports sel hsel
      exact completed.written_of_committed settled hsel hp (hcommitted report hr) ht
    · obtain ⟨report, hr, k, hp⟩ := completed.reports sel hsel
      exact hp.brought_of_committed (hcommitted report hr)

/-- **The advertised versions are committed.** -/
theorem Achieved.versions_eq (ha : Achieved p t m stored sels) (ht : Tracked start t w)
    (kind : DataKind) : w.versions.get kind = some (m.latest kind) := by
  by_cases hkind : kind ∈ sels.map (·.kind)
  · obtain ⟨sel, hsel, rfl⟩ := List.mem_map.1 hkind
    obtain ⟨-, hadvertised, -⟩ := ha.selected sel hsel
    rw [← hadvertised]
    exact ht.committed _ _ (ha.commits sel hsel)
  · rw [ht.unchanged kind (ha.spared kind hkind),
      ← ht.told stored ((ha.committed stored).2 rfl)]
    exact (ha.intact kind hkind).1

/-- A target of an unchanged version that was not found to be absent was found. -/
theorem Settled.found (hs : Settled p t m stored sels) (hl : LooksWell t) {kind : DataKind}
    (hsame : stored.get kind = some (m.latest kind)) {target : FetchTarget}
    (ht : target ∈ p.targets kind)
    (hn : ¬ Brought t (.exist (target.key (m.latest kind))) false) :
    Brought t (.exist (target.key (m.latest kind))) true := by
  obtain ⟨e, he, hcall⟩ := hs.looked_up kind hsame target ht
  obtain ⟨found, hb⟩ := hl e he _ hcall
  cases found with
  | false => exact absurd ⟨.epoch, e, mem_exchanges.1 he, hb⟩ hn
  | true => exact ⟨.epoch, e, mem_exchanges.1 he, hb⟩

/-- **Every target of the advertised versions was written, or found in the cache.** -/
theorem Achieved.secured (ha : Achieved p t m stored sels) (hl : LooksWell t) {kind : DataKind}
    {target : FetchTarget} (ht : target ∈ p.targets kind) :
    Secured p t target (m.latest kind) := by
  by_cases hkind : kind ∈ sels.map (·.kind)
  · obtain ⟨sel, hsel, rfl⟩ := List.mem_map.1 hkind
    obtain ⟨-, hadvertised, -, hmem⟩ := ha.selected sel hsel
    rw [← hadvertised]
    by_cases hdue : target ∈ sel.targets
    · exact .inl (ha.renewed sel hsel target hdue)
    · -- A target that was not selected is not due, so it was looked up and found.
      rw [hmem, Due, not_and, Classical.not_imp] at hdue
      obtain ⟨hsame, hn⟩ := hdue ht
      rw [hadvertised] at hsame hn ⊢
      exact .inr (ha.found hl hsame ht hn)
  · obtain ⟨hsame, hn⟩ := ha.intact kind hkind
    exact .inr (ha.found hl hsame ht (hn target ht))

/-! ## Unchanged epochs -/

/-- An epoch that knows the versions is unchanged when it has selected nothing. -/
theorem Run.settled (run : Run p trigger t (.ended epoch)) (hm : Brought t .metadata m)
    (hs : Brought t .versions stored) :
    ∃ sels, Settled p t m stored sels ∧ (epoch.outcome = some .unchanged ↔ sels = []) := by
  cases run.closed with
  | failed _ _ _ untold => exact absurd hs (untold m stored hm)
  | idle _ outcome_eq settled =>
    obtain rfl := (settled.advertised m).1 hm
    obtain rfl := (settled.committed stored).1 hs
    exact ⟨[], settled, iff_of_true outcome_eq rfl⟩
  | @completed _ _ sels _ settled completed =>
    obtain rfl := (settled.advertised m).1 hm
    obtain rfl := (settled.committed stored).1 hs
    exact ⟨sels, settled, iff_of_false completed.ne_unchanged completed.ne_nil⟩

/-- **Nothing is selected exactly when the versions agree and no entry was found to be absent.** -/
theorem Settled.eq_nil_iff (hs : Settled p t m stored sels) :
    sels = [] ↔ (∀ kind, stored.get kind = some (m.latest kind)) ∧
      ∀ key, ¬ Brought t (.exist key) false := by
  constructor
  · rintro rfl
    refine ⟨fun kind => (hs.intact kind nofun).1, fun key hb => ?_⟩
    obtain ⟨kind, target, ht, rfl⟩ := hs.exists_of_lookup key false hb
    exact (hs.intact kind nofun).2 target ht hb
  · rintro ⟨hsame, habsent⟩
    rw [List.eq_nil_iff_forall_not_mem]
    intro sel hsel
    obtain ⟨-, hadvertised, hne, hmem⟩ := hs.selected sel hsel
    obtain ⟨target, ht⟩ := List.exists_mem_of_ne_nil _ hne
    refine habsent _ (((hmem target).1 ht).2 ?_)
    rw [hadvertised]
    exact hsame sel.kind

/-- An epoch that has selected nothing makes no call but those of the check. -/
theorem Run.isOfCheck_of_unselected (run : Run p trigger t s) (hs : selections t = []) :
    ∀ c ∈ calls t, c.isOfCheck = true := by
  intro c hc
  obtain ⟨t₁, worker, r, t₂, rfl, hr⟩ := exists_of_mem_calls hc
  rw [selections_append, List.append_eq_nil_iff] at hs
  cases worker with
  | epoch =>
    cases run.asked_epoch .asked with
    | checking asks =>
      have hcheck := asks_checking asks
      cases r <;> cases hr <;> cases c <;> first | rfl | exact hcheck.elim
    | writing writes => simp [writes.selected] at hs
    | concluding ends =>
      rw [call?_of_isOfConclusion ends] at hr
      cases hr
  | job n =>
    obtain ⟨s₁, run₁, hfacing⟩ := run.faced .asked
    cases hfacing with
    | checking epoch => cases epoch
    | writing epoch => cases epoch
    | fetching job =>
      cases run₁.accounts with
      | fetching checked answered selected => simp [selected] at hs

/-- An epoch has done nothing but look. -/
structure Unchanged (t : List Moment) (epoch : Epoch) : Prop where
  outcome_eq : epoch.outcome = some .unchanged
  kinds_eq : epoch.kinds = []
  /-- Nothing is fetched, read, written, committed or removed. -/
  calls_of_check : ∀ c ∈ calls t, c.isOfCheck = true
  /-- Its answers leave the stores alone, whatever these are. -/
  stores_eq : ∀ worker e, Moment.answered worker e ∈ t → ∀ w : World,
    (w.after e).cache = w.cache ∧ (w.after e).versions = w.versions

/-- Only calls for a kind change the stores. -/
theorem stores_after {e : Exchange} (he : ∀ c, e.done? = some c → c.isOfKind = false) (w : World) :
    (w.after e).cache = w.cache ∧ (w.after e).versions = w.versions := by
  cases hdone : e.done? with
  | none => simp [World.after, hdone]
  | some c =>
    have hkind := he c hdone
    cases c with
    | read | write | commit | invalidate => cases hkind
    | metadata | fetch | player | versions | exist => simp [World.after, hdone, World.apply]

/-- **An unchanged epoch has done nothing but look.** -/
theorem Run.unchanged (run : Run p trigger t (.ended epoch))
    (h : epoch.outcome = some .unchanged) : Unchanged t epoch := by
  cases run.closed with
  | failed _ outcome_eq =>
    rw [outcome_eq] at h
    cases h
  | completed _ completed => exact absurd h completed.ne_unchanged
  | idle kinds_eq _ _ unselected unwritten =>
    refine ⟨h, kinds_eq, run.isOfCheck_of_unselected unselected, fun worker e he w => ?_⟩
    refine stores_after (fun c hc => ?_) w
    obtain ⟨x, hb⟩ := Exchange.exists_of_done? hc
    cases worker with
    | epoch => exact unwritten e (mem_exchanges.2 he) c hb.call?
    | job n =>
      obtain ⟨_, _, rfl⟩ := run.fetch_of_answered he hb.call?
      rfl

end Engine

end ContentSync
