import ContentSync.Proofs.Engine.Itemization

/-!
# How outcomes are classified

An outcome is decided from the reports of kinds. Not every list of reports can arise, and for those
that can the outcome tells what has happened.

* `KindReport.Coherent` — what the reports of an epoch that is over have in common;
* `Outcome.decide_eq_unchanged_iff`, `Outcome.decide_eq_success_iff`, `Outcome.decide_eq_failure_iff` —
  what is decided from coherent reports;
* `Run.coherent`, `Run.truthful` — the report of a kind is coherent, and tells whether the kind was
  committed;
* `Completed.chosen_iff`, `Run.commitFailed_iff`, `Run.wrote_iff` — what the reports tell of the
  history;
* `Classified` / `Run.classified` — what the outcome tells of it.
-/

set_option autoImplicit false

namespace ContentSync

/-! ## Coherent reports -/

/-- A kind is reported with its targets, and a commit that was tried is reported of a kind that was
written in full. -/
structure KindReport.Coherent (r : KindReport) : Prop where
  targets_ne_nil : r.targets ≠ []
  fullyWritten : r.committed = true ∨ r.commitError.isSome = true → r.fullyWritten = true
  uncommitted : r.commitError.isSome = true → r.committed = false

namespace KindReport

variable {r : KindReport}

theorem fullyWritten_iff : r.fullyWritten = true ↔
    r.targets ≠ [] ∧ ∀ x ∈ r.targets, x.error = none := by
  simp [fullyWritten, TargetReport.succeeded]

theorem allFailed_iff : r.allFailed = true ↔ r.targets ≠ [] ∧ ∀ x ∈ r.targets, x.error ≠ none := by
  simp [allFailed, TargetReport.succeeded, Option.isSome_iff_ne_none]

/-- A kind that was written in full has not failed altogether. -/
theorem allFailed_of_fullyWritten (h : r.fullyWritten = true) : r.allFailed = false := by
  obtain ⟨hne, hall⟩ := fullyWritten_iff.1 h
  obtain ⟨x, hx⟩ := List.exists_mem_of_ne_nil _ hne
  rw [Bool.eq_false_iff, ne_eq, allFailed_iff]
  exact fun hfailed => hfailed.2 x hx (hall x hx)

end KindReport

namespace Outcome

variable {kinds : List KindReport}

theorem decide_eq_unchanged_iff : Outcome.decide kinds = .unchanged ↔ kinds = [] := by
  refine ⟨Outcome.eq_nil_of_unchanged, ?_⟩
  rintro rfl
  rfl

/-- **Where reports are coherent, a success is one in which every kind was committed.** -/
theorem decide_eq_success_iff (h : ∀ r ∈ kinds, r.Coherent) :
    Outcome.decide kinds = .success ↔ kinds ≠ [] ∧ ∀ r ∈ kinds, r.committed = true := by
  constructor
  · intro hd
    refine ⟨?_, Outcome.committed_of_success hd⟩
    rintro rfl
    cases hd
  · rintro ⟨hne, hall⟩
    refine Outcome.decide_of_committed hne fun r hr => ⟨hall r hr, ?_⟩
    rw [← Option.not_isSome_iff_eq_none]
    exact fun herror => absurd ((h r hr).uncommitted herror) (by simp [hall r hr])

/-- **Where reports are coherent, a failure is one of a commit or of every target.** -/
theorem decide_eq_failure_iff (h : ∀ r ∈ kinds, r.Coherent) (hne : kinds ≠ []) :
    Outcome.decide kinds = .failure ↔ (∃ r ∈ kinds, r.commitError.isSome = true) ∨
      ∀ r ∈ kinds, ∀ x ∈ r.targets, x.error ≠ none := by
  have hall : (∀ r ∈ kinds, r.allFailed = true) ↔
      ∀ r ∈ kinds, ∀ x ∈ r.targets, x.error ≠ none :=
    forall₂_congr fun r hr => by rw [KindReport.allFailed_iff, and_iff_right (h r hr).targets_ne_nil]
  obtain ⟨r₀, hr₀⟩ := List.exists_mem_of_ne_nil _ hne
  rw [← hall, Outcome.decide, if_neg (by simpa using hne)]
  by_cases herror : kinds.any (·.commitError.isSome) = true
  · rw [if_pos herror]
    exact iff_of_true rfl (.inl (List.any_eq_true.1 herror))
  rw [if_neg herror, or_iff_right fun hsome => herror (List.any_eq_true.2 hsome)]
  by_cases hcommitted : kinds.all (·.committed) = true
  · -- A kind that was committed has been written, so it has not failed altogether.
    rw [if_pos hcommitted]
    refine iff_of_false (by decide) fun hfailed => ?_
    have hfull := (h r₀ hr₀).fullyWritten (.inl (List.all_eq_true.1 hcommitted r₀ hr₀))
    exact absurd (KindReport.allFailed_of_fullyWritten hfull) (by simp [hfailed r₀ hr₀])
  rw [if_neg hcommitted]
  by_cases hfailed : kinds.all (·.allFailed) = true
  · rw [if_pos hfailed]
    exact iff_of_true rfl (List.all_eq_true.1 hfailed)
  · rw [if_neg hfailed]
    exact iff_of_false (by decide) fun hf => hfailed (List.all_eq_true.2 hf)

end Outcome

namespace Engine

open Program

variable {p : SyncPolicy} {trigger : Trigger} {t : List Moment} {epoch : Epoch} {m : Metadata}
  {stored : StoredVersions} {sels : List Selection} {results : List Fetched} {sel : Selection}
  {report : KindReport} {k : List Exchange} {kind : DataKind} {start w : World}

/-! ## What has happened in an epoch -/

/-- The check was told the versions. -/
def Told (t : List Moment) : Prop := ∃ m stored, Brought t .metadata m ∧ Brought t .versions stored

/-- Targets of a kind were selected. -/
def Chosen (t : List Moment) (kind : DataKind) : Prop :=
  ∃ jobs ∈ selections t, ∃ job ∈ jobs, job.1.kind = kind

def Committed (t : List Moment) (kind : DataKind) : Prop := ∃ v, Brought t (.commit kind v) ()

/-- A commit was made and brought nothing. -/
def CommitFailed (t : List Moment) : Prop :=
  ∃ e ∈ exchanges .epoch t, ∃ kind v, e.request.call? = some (.commit kind v) ∧ e.Failed

/-- Some payload was written. -/
def Wrote (t : List Moment) : Prop :=
  ∃ key payload lifetime, Brought t (.write key payload lifetime) ()

/-! ## Reports of kinds -/

/-- **The report of a kind is coherent.** -/
theorem Processed.coherent (hp : Processed p t results sel report k) (hne : report.targets ≠ []) :
    report.Coherent := by
  obtain ⟨k₁, k₂, reports, rfl, -, hcommit⟩ := ends_processKind hp.ends
  obtain ⟨-, -, rfl⟩ | ⟨-, -, rfl⟩ | ⟨_, _, -, hfull, -, rfl⟩ | ⟨_, -, hfull, -, rfl⟩ :=
    ends_commitKind hcommit
  · exact ⟨hne, nofun, nofun⟩
  · exact ⟨hne, nofun, nofun⟩
  · exact ⟨hne, fun _ => hfull, fun _ => rfl⟩
  · exact ⟨hne, fun _ => hfull, nofun⟩

theorem Run.coherent (run : Run p trigger t (.ended epoch)) : ∀ r ∈ epoch.kinds, r.Coherent := by
  intro r hr
  obtain ⟨m, stored, sels, results, sel, k, hs, hc, hsel, hp⟩ := run.processed_of_report hr
  refine hp.coherent ?_
  obtain ⟨-, -, hne, -⟩ := hs.selected sel hsel
  obtain ⟨target, ht⟩ := List.exists_mem_of_ne_nil _ hne
  obtain ⟨x, hx, -⟩ := (hc.mem_targets_iff hs hsel hp).2 ht
  exact List.ne_nil_of_mem hx

/-- A call that is made while a kind is processed is a bounded one. -/
theorem Request.Concerns.eq_call {r : Request} {c : Call} (hr : r.Concerns kind)
    (hc : r.call? = some c) : ∃ limit, r = .call c limit := by
  cases r with
  | call c' limit =>
    obtain rfl := Option.some.inj hc
    exact ⟨limit, rfl⟩
  | wait | attempt => exact hr.elim
  | publish | isCancelled | clock | announce | remember | pause | compute => cases hc

/-- A failed commit is reported, and nothing else is reported as one. -/
theorem Processed.commitError_iff (hp : Processed p t results sel report k) :
    report.commitError.isSome = true ↔
      ∃ e ∈ k, ∃ kind v, e.request.call? = some (.commit kind v) ∧ e.Failed := by
  obtain ⟨k₁, k₂, reports, rfl, hwrites, hcommit⟩ := ends_processKind hp.ends
  have hlast : (∃ e ∈ k₁ ++ k₂, ∃ kind v, e.request.call? = some (.commit kind v) ∧ e.Failed) ↔
      ∃ e ∈ k₂, ∃ kind v, e.request.call? = some (.commit kind v) ∧ e.Failed := by
    constructor
    · rintro ⟨e, he, kind, v, hcall, hfailed⟩
      obtain he | he := List.mem_append.1 he
      · obtain ⟨_, hasks⟩ := Path.asks_of_mem hwrites he
        obtain ⟨limit, heq⟩ := Request.Concerns.eq_call (asks_writeTargets_concerns hasks).1 hcall
        exact absurd heq (not_commit_of_writeTargets hwrites kind v limit e he)
      · exact ⟨e, he, kind, v, hcall, hfailed⟩
    · rintro ⟨e, he, hfailed⟩
      exact ⟨e, List.mem_append_right _ he, hfailed⟩
  rw [hlast]
  obtain ⟨rfl, -, rfl⟩ | ⟨rfl, -, rfl⟩ | ⟨a, f, rfl, -, ha, rfl⟩ | ⟨l, rfl, -, hl, rfl⟩ :=
    ends_commitKind hcommit
  · exact iff_of_false nofun fun ⟨_, he, _⟩ => absurd he List.not_mem_nil
  · refine iff_of_false nofun ?_
    rintro ⟨e, he, kind, v, hcall, -⟩
    rw [List.mem_singleton.1 he] at hcall
    cases hcall
  · exact iff_of_true rfl ⟨_, List.mem_cons_of_mem _ List.mem_cons_self, _, _, rfl,
      failed_of_boundedResult ha⟩
  · refine iff_of_false nofun ?_
    rintro ⟨e, he, kind, v, hcall, c, hc, hfailed⟩
    obtain rfl | he := List.mem_cons.1 he
    · cases hcall
    obtain rfl | he := List.mem_cons.1 he
    · cases hc
      exact hfailed () (.call _)
    -- What follows an answered commit removes entries.
    · obtain ⟨_, hasks⟩ := Path.asks_of_mem hl he
      obtain ⟨_, -, -, _, -, heq⟩ := asks_expirePrevious hasks
      rw [heq] at hcall
      cases hcall

/-- A kind is reported as committed when its commit was answered. -/
theorem Run.committed_iff_answered (run : Run p trigger t (.ended epoch)) {r : KindReport}
    (hr : r ∈ epoch.kinds) : r.committed = true ↔ Committed t r.kind := by
  constructor
  · intro hcommitted
    obtain ⟨m, stored, sels, results, sel, k, -, -, -, hp⟩ := run.processed_of_report hr
    rw [hp.report_eq.1]
    exact ⟨_, hp.brought_of_committed hcommitted⟩
  · rintro ⟨v, hb⟩
    obtain ⟨r', hr', hsame, hcommitted, -⟩ := run.committed_of_brought hb
    obtain rfl := List.inj_on_of_nodup_map run.reports_eq.1 hr' hr hsame
    exact hcommitted

/-- **Of a kind that is reported as committed, every selected target was fetched and written.** -/
theorem Run.renewed_of_committed (run : Run p trigger t (.ended epoch)) {r : KindReport}
    (hr : r ∈ epoch.kinds) (hcommitted : r.committed = true) {jobs : List Job}
    (hjobs : jobs ∈ selections t) {target : FetchTarget} {v : Version} (hmem : (target, v) ∈ jobs)
    (hkind : target.kind = r.kind) : Renewed p t target v := by
  obtain ⟨m, stored, sels, results, sel, k, hs, hc, hsel, hp⟩ := run.processed_of_report hr
  obtain rfl : jobs = sels.flatMap Selection.jobs := by simpa [hc.selections_eq] using hjobs
  obtain ⟨rfl, ht⟩ := (hs.mem_jobs_iff hsel (hkind.trans hp.report_eq.1)).1 hmem
  exact hc.written_of_committed hs hsel hp hcommitted ht

/-! ## What the reports tell -/

theorem Completed.chosen_iff (hc : Completed p t epoch sels results)
    (hs : Settled p t m stored sels) : Chosen t kind ↔ kind ∈ epoch.kinds.map (·.kind) := by
  rw [Chosen, hc.selections_eq, hc.kinds_eq, hs.kind_mem_iff]
  simp only [List.mem_singleton, exists_eq_left]

theorem Run.commitFailed_iff (run : Run p trigger t (.ended epoch)) :
    CommitFailed t ↔ ∃ r ∈ epoch.kinds, r.commitError.isSome = true := by
  constructor
  · rintro ⟨e, he, kind, v, hcall, hfailed⟩
    obtain ⟨m, stored, sels, results, sel, r, k, -, -, -, hr, hp, hk⟩ :=
      run.processed_of_mem he hcall rfl
    exact ⟨r, hr, hp.commitError_iff.2 ⟨e, hk, kind, v, hcall, hfailed⟩⟩
  · rintro ⟨r, hr, herror⟩
    obtain ⟨m, stored, sels, results, sel, k, -, -, -, hp⟩ := run.processed_of_report hr
    obtain ⟨e, he, hfailed⟩ := hp.commitError_iff.1 herror
    exact ⟨e, hp.part he, hfailed⟩

theorem Run.wrote_iff (run : Run p trigger t (.ended epoch)) :
    Wrote t ↔ ∃ r ∈ epoch.kinds, ∃ x ∈ r.targets, x.error = none := by
  constructor
  · rintro ⟨key, payload, lifetime, hb⟩
    obtain ⟨e, he, hb, limit, hrequest⟩ := run.exchange_of_brought hb rfl
    obtain ⟨m, stored, sels, results, sel, r, k, -, -, -, hr, hp, hk⟩ :=
      run.processed_of_mem he hb.call? rfl
    cases hb with
    | wait | attempt => cases hrequest
    | call limit =>
      obtain ⟨x, hx, herror, -⟩ := hp.of_written hk
      exact ⟨r, hr, x, hx, herror⟩
  · rintro ⟨r, hr, x, hx, herror⟩
    obtain ⟨m, stored, sels, results, sel, k, -, -, -, hp⟩ := run.processed_of_report hr
    obtain ⟨f, -, -, -, payload, -, hb⟩ := hp.brought_of_succeeded hx herror
    exact ⟨_, _, _, hb⟩

/-! ## The outcome -/

/-- What the outcome of an epoch tells of its history. -/
structure Classified (t : List Moment) (epoch : Epoch) : Prop where
  unchanged : epoch.outcome = some .unchanged ↔ Told t ∧ ∀ kind, ¬ Chosen t kind
  success : epoch.outcome = some .success ↔
    (∃ kind, Chosen t kind) ∧ ∀ kind, Chosen t kind → Committed t kind
  failure : epoch.outcome = some .failure ↔
    ¬ Told t ∨ CommitFailed t ∨ ((∃ kind, Chosen t kind) ∧ ¬ Wrote t)
  /-- There is no other case. -/
  partly : epoch.outcome = some .partly ↔ epoch.outcome ≠ some .unchanged ∧
    epoch.outcome ≠ some .success ∧ epoch.outcome ≠ some .failure
  of_partly : epoch.outcome = some .partly →
    Wrote t ∧ (∃ kind, Chosen t kind ∧ ¬ Committed t kind) ∧ ¬ CommitFailed t
  /-- After a success the advertised versions of the chosen kinds are stored. -/
  stored : epoch.outcome = some .success → ∀ m start w, Brought t .metadata m → Follows start t w →
    ∀ kind, Chosen t kind → w.versions.get kind = some (m.latest kind)

/-- What the report of a kind tells of the history. -/
structure Truthful (p : SyncPolicy) (t : List Moment) (r : KindReport) : Prop where
  committed : r.committed = true ↔
    (∀ jobs ∈ selections t, ∀ target v, (target, v) ∈ jobs → target.kind = r.kind →
      Renewed p t target v) ∧ Committed t r.kind
  exclusive : ¬ (r.committed = true ∧ r.commitError.isSome = true)

theorem Run.truthful (run : Run p trigger t (.ended epoch)) {r : KindReport}
    (hr : r ∈ epoch.kinds) : Truthful p t r where
  committed := by
    refine ⟨fun h => ⟨fun jobs hjobs target v hmem hkind => ?_, ?_⟩, fun h => ?_⟩
    · exact run.renewed_of_committed hr h hjobs hmem hkind
    · exact (run.committed_iff_answered hr).1 h
    · exact (run.committed_iff_answered hr).2 h.2
  exclusive := by
    rintro ⟨hcommitted, herror⟩
    rw [(run.coherent r hr).uncommitted herror] at hcommitted
    cases hcommitted

/-- An epoch that has completed its kinds is told of in terms of its reports. -/
theorem Run.classified_of_completed (run : Run p trigger t (.ended epoch))
    (hs : Settled p t m stored sels) (hc : Completed p t epoch sels results)
    (hcancelled : epoch.cancelled = false) : Classified t epoch := by
  have hne : epoch.kinds ≠ [] := by
    intro hnil
    have hkinds := hc.kinds_eq
    rw [hnil] at hkinds
    exact hc.ne_nil (List.map_eq_nil_iff.1 hkinds.symm)
  have houtcome : epoch.outcome = some (.decide epoch.kinds) := by
    rw [hc.outcome_eq, hcancelled]
    rfl
  have htold : Told t := ⟨m, stored, (hs.advertised m).2 rfl, (hs.committed stored).2 rfl⟩
  have hchosen : ∀ {kind}, Chosen t kind ↔ ∃ r ∈ epoch.kinds, r.kind = kind := by
    intro kind
    rw [hc.chosen_iff hs, List.mem_map]
  have hsome : ∃ kind, Chosen t kind := by
    obtain ⟨r, hr⟩ := List.exists_mem_of_ne_nil _ hne
    exact ⟨r.kind, hchosen.2 ⟨r, hr, rfl⟩⟩
  have hcommitted : (∀ r ∈ epoch.kinds, r.committed = true) ↔
      ∀ kind, Chosen t kind → Committed t kind := by
    constructor
    · intro hall kind hkind
      obtain ⟨r, hr, rfl⟩ := hchosen.1 hkind
      exact (run.committed_iff_answered hr).1 (hall r hr)
    · exact fun hall r hr => (run.committed_iff_answered hr).2 (hall r.kind (hchosen.2 ⟨r, hr, rfl⟩))
  have hwrote : (∀ r ∈ epoch.kinds, ∀ x ∈ r.targets, x.error ≠ none) ↔ ¬ Wrote t := by
    rw [run.wrote_iff]
    push Not
    rfl
  have hsuccess : epoch.outcome = some .success ↔
      (∃ kind, Chosen t kind) ∧ ∀ kind, Chosen t kind → Committed t kind := by
    rw [houtcome, Option.some.injEq, Outcome.decide_eq_success_iff run.coherent, hcommitted,
      and_iff_right hne, and_iff_right hsome]
  have hfailure : epoch.outcome = some .failure ↔ CommitFailed t ∨ ¬ Wrote t := by
    rw [houtcome, Option.some.injEq, Outcome.decide_eq_failure_iff run.coherent hne,
      run.commitFailed_iff, hwrote]
  have hunchanged : epoch.outcome ≠ some .unchanged := by
    rw [houtcome, ne_eq, Option.some.injEq, Outcome.decide_eq_unchanged_iff]
    exact hne
  exact
    { unchanged := by
        obtain ⟨kind, hkind⟩ := hsome
        exact iff_of_false hunchanged fun h => h.2 kind hkind
      success := hsuccess
      failure := by rw [hfailure, or_iff_right (not_not_intro htold), and_iff_right hsome]
      partly := by
        rw [houtcome]
        cases Outcome.decide epoch.kinds <;> simp
      -- In a partial epoch nothing of what makes a success or a failure has happened.
      of_partly := by
        intro h
        have hnot : epoch.outcome ≠ some .success ∧ epoch.outcome ≠ some .failure := by
          rw [h]
          exact ⟨nofun, nofun⟩
        rw [ne_eq, hsuccess, and_iff_right hsome, ne_eq, hfailure, not_or, not_not] at hnot
        push Not at hnot
        obtain ⟨hkind, hcommits, hwrites⟩ := hnot
        exact ⟨hwrites, hkind, hcommits⟩
      stored := by
        intro h m' start w hm follows kind hkind
        obtain ⟨v, hb⟩ := (hsuccess.1 h).2 kind hkind
        obtain ⟨r, hr, rfl, -, rfl⟩ := run.committed_of_brought hb
        obtain ⟨m'', _, hm'', -, hnew, -⟩ := run.reports_eq.2 r hr
        obtain rfl := (hm'' m').1 hm
        have run' : Run p trigger (t ++ []) (.ended epoch) := by simpa using run
        rw [(follows.tracked run').committed _ _ hb, hnew] }

/-- An epoch that has selected nothing has failed to learn the versions, or is unchanged. -/
theorem Run.classified_of_unselected (run : Run p trigger t (.ended epoch))
    (unselected : selections t = []) (kinds_eq : epoch.kinds = [])
    (ho : (Told t ∧ epoch.outcome = some .unchanged) ∨
      (¬ Told t ∧ epoch.outcome = some .failure)) : Classified t epoch := by
  have hnone : ∀ kind, ¬ Chosen t kind := by
    rintro kind ⟨jobs, hjobs, -⟩
    rw [unselected] at hjobs
    cases hjobs
  have hcommits : ¬ CommitFailed t := by
    rw [run.commitFailed_iff, kinds_eq]
    exact fun ⟨_, hr, _⟩ => absurd hr List.not_mem_nil
  obtain ⟨htold, ho⟩ | ⟨htold, ho⟩ := ho
  all_goals
    refine ⟨?_, ?_, ?_, ?_, fun h => ?_, fun h => ?_⟩
    · simp [ho, htold, hnone]
    · simp [ho, hnone]
    · simp [ho, htold, hcommits, hnone]
    · simp [ho]
    · simp [ho] at h
    · simp [ho] at h

/-- **The outcome of an epoch tells what has happened in it**, whatever the collaborators have
answered, unless it is recorded as cancelled; and so does every report of a kind, even then. -/
theorem Run.classified (run : Run p trigger t (.ended epoch)) :
    (wasCancelled t = false ∨ epoch.cancelled = false → Classified t epoch) ∧
      ∀ r ∈ epoch.kinds, Truthful p t r := by
  refine ⟨fun hc => ?_, fun r hr => run.truthful hr⟩
  cases run.closed with
  | failed kinds_eq outcome_eq _ untold =>
    have htold : ¬ Told t := fun ⟨m, stored, hm, hs⟩ => untold m stored hm hs
    have unselected : selections t = [] := by
      by_contra hs
      obtain ⟨m, stored, _, _, settled, -⟩ := run.completed_of_selected hs
      exact htold ⟨m, stored, (settled.advertised m).2 rfl, (settled.committed stored).2 rfl⟩
    exact run.classified_of_unselected unselected kinds_eq (.inr ⟨htold, outcome_eq⟩)
  | @idle m stored kinds_eq outcome_eq settled unselected =>
    have htold : Told t := ⟨m, stored, (settled.advertised m).2 rfl, (settled.committed stored).2 rfl⟩
    exact run.classified_of_unselected unselected kinds_eq (.inl ⟨htold, outcome_eq⟩)
  | completed settled completed =>
    refine run.classified_of_completed settled completed (hc.elim (fun hn => ?_) id)
    -- Who is not cancelled has not seen a cancellation.
    by_contra hcancelled
    have hlook := completed.look
    rw [Bool.not_eq_false] at hcancelled
    rw [hcancelled] at hlook
    rw [run.cancelled_of_look hlook] at hn
    cases hn

/-- One of two kinds is committed: a payload of the other one cannot be written. -/
theorem Run.classified_partly :
    ∃ t epoch, Run .default .manual t (.ended epoch) ∧ Classified t epoch ∧
      epoch.outcome = some .partly := by
  let played := Conduct.oneUnwritten.play .default .manual false
  have run : Run .default .manual played.history (.ended played.result) := Conduct.play_run false
  have huncancelled : wasCancelled played.history = false := by decide +kernel
  have houtcome : played.result.outcome = some .partly := by decide +kernel
  exact ⟨_, _, run, (Run.classified run).1 (.inl huncancelled), houtcome⟩

end Engine

end ContentSync
