import ContentSync.Proofs.Engine.Budget
import ContentSync.Proofs.Engine.Closing
import ContentSync.Proofs.Engine.Reporting

/-!
# Nothing is skipped

A call that fails or is given up keeps an epoch from nothing but what depends on its own answer. The
other targets of the kind and the other kinds have their turn.

* `Thorough` — what an epoch has done that was told the versions;
* `Run.thorough` — it has done so, however its calls for the kinds have ended.
-/

set_option autoImplicit false

namespace ContentSync

namespace Engine

open Program

variable {p : SyncPolicy} {trigger : Trigger} {t : List Moment} {s : Situation} {epoch : Epoch}
  {m : Metadata} {stored : StoredVersions} {sels : List Selection} {results : List Fetched}
  {sel : Selection} {report : KindReport} {k : List Exchange}

/-- Nothing that an epoch had to do for the versions it was told has been skipped. -/
structure Thorough (p : SyncPolicy) (t : List Moment) (m : Metadata) (stored : StoredVersions)
    (epoch : Epoch) : Prop where
  /-- Every target of an unchanged version is looked up. -/
  looked_up : ∀ kind, stored.get kind = some (m.latest kind) → ∀ target ∈ p.targets kind,
    .exist (target.key (m.latest kind)) ∈ calls t
  /-- Every target that has to be fetched is reported, in the report of its kind. -/
  reported : ∀ kind target, Due p t stored kind (m.latest kind) target →
    ∃ report ∈ epoch.kinds, report.kind = kind ∧ ∃ x ∈ report.targets, x.target = target
  /-- Everything that was fetched is written. -/
  written : wasCancelled t = false → ∀ report ∈ epoch.kinds, ∀ x ∈ report.targets, ∀ payload,
    Brought t (.fetch x.target report.newVersion p.unzip) payload →
    .write (x.target.key report.newVersion) payload (p.lifetime x.target.kind) ∈ calls t
  /-- Every kind that was written in full is committed. -/
  committed : wasCancelled t = false → ∀ report ∈ epoch.kinds, report.fullyWritten = true →
    .commit report.kind report.newVersion ∈ calls t
  /-- Every entry of the version before is removed. -/
  removed : ∀ report ∈ epoch.kinds, report.committed = true → ∀ old,
    report.oldVersion = some old → old ≠ report.newVersion → ∀ x ∈ report.targets,
    .invalidate (x.target.key old) ∈ calls t

/-! ## A kind that has been processed -/

theorem Processed.mem_calls (hp : Processed p t results sel report k) (run : Run p trigger t s)
    {e : Exchange} (he : e ∈ k) {c : Call} {limit : Duration} (hc : e.request = .call c limit) :
    c ∈ calls t :=
  run.mem_calls_of_exchange (hp.part he) (congrArg Request.call? hc)

/-- A kind that was written in full is committed for the advertised version. -/
theorem Processed.commit_mem (hp : Processed p t results sel report k) (run : Run p trigger t s)
    (uncancelled : wasCancelled t = false) (hfull : report.fullyWritten = true) :
    .commit report.kind report.newVersion ∈ calls t := by
  obtain ⟨hkind, -, hnew⟩ := hp.report_eq
  obtain ⟨k₁, k₂, targets, rfl, -, hcommit⟩ := ends_processKind hp.ends
  have hmem : ∀ a, (⟨.call (commitCall { sel.report with targets := targets }) p.ioTimeout, a⟩ :
      Exchange) ∈ k₂ → .commit report.kind report.newVersion ∈ calls t := by
    intro a ha
    have hcall := hp.mem_calls run (List.mem_append_right _ ha) rfl
    rwa [hkind, hnew]
  obtain ⟨-, hnot, rfl⟩ | ⟨rfl, -, -⟩ | ⟨a, f, rfl, -, -, -⟩ | ⟨l, rfl, -, -, -⟩ :=
    ends_commitKind hcommit
  · rw [hnot] at hfull
    cases hfull
  · have hlook : cancelAnswer true ∈ exchanges .epoch t := hp.part (by simp)
    rw [run.cancelled_of_look hlook] at uncancelled
    cases uncancelled
  · exact hmem a (by simp)
  · exact hmem (some (.ok ())) (by simp)

/-- The entries of the version before a committed one are removed, each for itself. -/
theorem Processed.invalidate_mem (hp : Processed p t results sel report k) (run : Run p trigger t s)
    (hcommitted : report.committed = true) {old : Version} (hold : report.oldVersion = some old)
    (hne : old ≠ report.newVersion) {x : TargetReport} (hx : x ∈ report.targets) :
    .invalidate (x.target.key old) ∈ calls t := by
  obtain ⟨k₁, k₂, targets, rfl, -, hcommit⟩ := ends_processKind hp.ends
  obtain ⟨-, -, rfl⟩ | ⟨-, -, rfl⟩ | ⟨_, _, -, -, -, rfl⟩ | ⟨l, rfl, -, hexpire, rfl⟩ :=
    ends_commitKind hcommit
  · cases hcommitted
  · cases hcommitted
  · cases hcommitted
  · have hold : sel.report.oldVersion = some old := hold
    have hne : old ≠ sel.report.newVersion := hne
    simp only [expirePrevious, hold, if_neg hne] at hexpire
    have hcalls := callsOf_expire hexpire
    have hmem : Call.invalidate (x.target.key old) ∈ callsOf l := by
      rw [hcalls]
      exact List.mem_map_of_mem (List.mem_map_of_mem hx)
    obtain ⟨e, he, hrequest⟩ := List.mem_filterMap.1 hmem
    refine run.mem_calls_of_exchange (hp.part ?_) hrequest
    simp [he]

/-! ## The epoch -/

theorem Completed.write_mem (hc : Completed p t epoch sels results)
    (hs : Settled p t m stored sels) (run : Run p trigger t s) (hsel : sel ∈ sels)
    (hp : Processed p t results sel report k) (uncancelled : wasCancelled t = false)
    {x : TargetReport} (hx : x ∈ report.targets) {payload : Json}
    (hb : Brought t (.fetch x.target report.newVersion p.unzip) payload) :
    .write (x.target.key report.newVersion) payload (p.lifetime x.target.kind) ∈ calls t := by
  obtain ⟨-, -, hnew⟩ := hp.report_eq
  obtain ⟨-, -, -, hdue⟩ := hs.selected sel hsel
  have ht := (hc.mem_targets_iff hs hsel hp).1 ⟨x, hx, rfl⟩
  have hkind := SyncPolicy.kind_of_mem_targets ((hdue x.target).1 ht).1
  obtain ⟨f, hf, htarget, hpayload⟩ := hc.fetched.exists_of_brought run hb
  rw [← htarget] at hkind ⊢
  obtain hlook | ⟨e, he, limit, hrequest⟩ := write_of_fetched hp.ends hf hkind hpayload
  · rw [run.cancelled_of_look (hp.part hlook)] at uncancelled
    cases uncancelled
  · have hcall := hp.mem_calls run he hrequest
    rwa [hnew]

/-- **Nothing is skipped.** An epoch that was told the versions does all that it has to do for them,
whatever the lookups and comparisons, the writes, the commits and the removals come to. -/
theorem Run.thorough (run : Run p trigger t (.ended epoch)) (hm : Brought t .metadata m)
    (hstored : Brought t .versions stored) : Thorough p t m stored epoch := by
  have hlooked : ∀ {m stored sels}, Settled p t m stored sels → ∀ kind,
      stored.get kind = some (m.latest kind) → ∀ target ∈ p.targets kind,
      .exist (target.key (m.latest kind)) ∈ calls t := by
    intro m stored sels settled kind hsame target ht
    obtain ⟨e, he, hcall⟩ := settled.looked_up kind hsame target ht
    exact run.mem_calls_of_exchange he hcall
  cases run.closed with
  | failed _ _ _ untold => exact absurd hstored (untold m stored hm)
  | @idle m' stored' kinds_eq _ settled =>
    obtain rfl := (settled.advertised m).1 hm
    obtain rfl := (settled.committed stored).1 hstored
    refine ⟨hlooked settled, fun kind target hdue => ?_, ?_, ?_, ?_⟩
    · obtain ⟨hsame, habsent⟩ := settled.intact kind (by simp)
      exact absurd (hdue.2 hsame) (habsent target hdue.1)
    all_goals simp [kinds_eq]
  | @completed m' stored' sels results settled completed =>
    obtain rfl := (settled.advertised m).1 hm
    obtain rfl := (settled.committed stored).1 hstored
    refine ⟨hlooked settled, fun kind target hdue => ?_, fun uncancelled report hr x hx payload hb => ?_,
      fun uncancelled report hr hfull => ?_, fun report hr hcommitted old hold hne x hx => ?_⟩
    · by_cases hkind : kind ∈ sels.map (·.kind)
      · obtain ⟨sel, hsel, rfl⟩ := List.mem_map.1 hkind
        obtain ⟨report, hr, k, hp⟩ := completed.reports sel hsel
        obtain ⟨-, hadvertised, -, hmem⟩ := settled.selected sel hsel
        have ht := (hmem target).2 (hadvertised ▸ hdue)
        exact ⟨report, hr, hp.report_eq.1, (completed.mem_targets_iff settled hsel hp).2 ht⟩
      · obtain ⟨hsame, habsent⟩ := settled.intact kind hkind
        exact absurd (hdue.2 hsame) (habsent target hdue.1)
    · obtain ⟨sel, hsel, k, hp⟩ := completed.origins report hr
      exact completed.write_mem settled run hsel hp uncancelled hx hb
    · obtain ⟨sel, -, k, hp⟩ := completed.origins report hr
      exact hp.commit_mem run uncancelled hfull
    · obtain ⟨sel, -, k, hp⟩ := completed.origins report hr
      exact hp.invalidate_mem run hcommitted hold hne hx

end Engine

end ContentSync
