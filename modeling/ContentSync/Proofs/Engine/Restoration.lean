import ContentSync.Proofs.Engine.Itemization

/-!
# Entries of a committed version are restored

Where the version of a kind has not changed, an epoch fetches again what has gone from the cache. That
the version is the same is found out three times: when targets are selected, when a payload is compared
and when old entries are removed. All three agree.

* `Run.settled_of_selections`, `Processing.settled` — what the check has settled, throughout a run;
* `Run.job_of_fetch`, `Run.fetch_mem_of_job` — the targets that are fetched are those of the jobs;
* `Refetching` / `Run.refetching` — what is asked for a kind that has not changed, at any time;
* `Epoch.knownChanges_filter` — targets that are not compared add nothing to the changes;
* `Restored` / `Run.restored` — what an epoch has done for such a kind when it is over;
* `Run.restores` — both at once.
-/

set_option autoImplicit false

namespace ContentSync

/-- Targets that are not compared add nothing to the changes. -/
theorem Epoch.knownChanges_filter {targets : List TargetReport} {q : TargetReport → Bool}
    (h : ∀ x ∈ targets, q x = false → x.comparison = none) :
    knownChanges (targets.filter q) = knownChanges targets := by
  rw [knownChanges, knownChanges, List.foldl_filter]
  refine List.foldl_ext _ _ _ fun total x hx => ?_
  cases hq : q x with
  | true => rfl
  | false => simp [h x hx hq]

namespace Engine

open Program

variable {p : SyncPolicy} {trigger : Trigger} {t u : List Moment} {s : Situation} {epoch : Epoch}
  {m : Metadata} {stored : StoredVersions} {jobs : List Job} {kind : DataKind} {start w : World}

/-! ## What has been settled -/

/-- Nothing is selected twice. -/
theorem Run.length_selections_le (run : Run p trigger t s) : (selections t).length ≤ 1 := by
  cases run.accounts with
  | checking _ _ unselected | concluding _ _ unselected =>
    rw [unselected]
    exact Nat.zero_le _
  | fetching _ _ selected | writing _ _ selected =>
    rw [selected]
    exact Nat.le_refl _

/-- What is selected stays selected. -/
theorem Run.selections_stay (run : Run p trigger (t ++ u) s) (hs : selections t = [jobs]) :
    selections (t ++ u) = [jobs] := by
  have hle := run.length_selections_le
  rw [selections_append, hs] at hle ⊢
  simpa using hle

/-- **What was selected has been settled by the check**, and nothing is told after it. -/
theorem Run.settled_of_selections (run : Run p trigger t s) (hs : selections t = [jobs]) :
    ∃ m stored sels, Settled p t m stored sels ∧ jobs = sels.flatMap Selection.jobs := by
  cases run.accounts with
  | checking _ _ unselected | concluding _ _ unselected =>
    rw [unselected] at hs
    cases hs
  | fetching checked _ selected =>
    rw [selected] at hs
    obtain rfl := (List.cons.inj hs).1
    obtain ⟨m, stored, sels, hselected⟩ := ends_checking_ready checked
    exact ⟨m, stored, sels, hselected.settled run (List.append_nil _).symm checked
      fun _ he => absurd he List.not_mem_nil, hselected.jobs_eq⟩
  | writing split checked selected _ thread =>
    rw [selected] at hs
    obtain rfl := (List.cons.inj hs).1
    obtain ⟨m, stored, sels, hselected⟩ := ends_checking_ready checked
    refine ⟨m, stored, sels, hselected.settled run split checked fun e he c hc => ?_,
      hselected.jobs_eq⟩
    obtain ⟨_, hasks⟩ := Path.asks_of_mem thread.path he
    obtain hasks | ⟨_, _, _, -, -, hasks⟩ := asks_bind.1 hasks
    · exact (asks_writing_request hasks).isOfCheck_eq hc
    · rw [call?_of_isOfConclusion (asks_concluding hasks)] at hc
      cases hc

/-- A kind that is processed has the versions that the epoch was told. -/
theorem Processing.settled {e : Epoch} {results : List Fetched} {r : KindReport} {l : List Exchange}
    {n : Moment} (hp : Processing p trigger t e jobs results r l) (run : Run p trigger (t ++ n :: u) s)
    (hm : Brought (t ++ n :: u) .metadata m) (hs : Brought (t ++ n :: u) .versions stored) :
    ∃ sels, Settled p (t ++ n :: u) m stored sels ∧ jobs = sels.flatMap Selection.jobs ∧
      r.newVersion = m.latest r.kind ∧ r.oldVersion = stored.get r.kind := by
  obtain ⟨s₁, run₁, -⟩ := run.split
  obtain ⟨m', stored', hselected, hold⟩ := hp.selection run₁
  obtain ⟨m'', stored'', sels, settled, hjobs⟩ :=
    run.settled_of_selections (run.selections_stay hselected.selections_eq)
  obtain rfl := (settled.advertised m').1 ((hselected.advertised m').2 rfl).append
  obtain rfl := (settled.advertised m).1 hm
  obtain rfl := (settled.committed stored').1 ((hselected.committed stored').2 rfl).append
  obtain rfl := (settled.committed stored).1 hs
  exact ⟨sels, settled, hjobs, hselected.version_eq, hold⟩

/-! ## Fetches -/

/-- **Only selected targets are fetched**, for the version that they were selected for. -/
theorem Run.job_of_fetch (run : Run p trigger t s) {target : FetchTarget} {v : Version} {unzip : Bool}
    (hc : Call.fetch target v unzip ∈ calls t) :
    ∃ jobs, selections t = [jobs] ∧ (target, v) ∈ jobs ∧ unzip = p.unzip := by
  obtain ⟨past, w, q, rest, rfl, hq⟩ := exists_of_mem_calls hc
  cases w with
  | epoch =>
    exfalso
    cases run.asked_epoch .asked with
    | checking asks =>
      have hcheck := asks_checking asks
      cases q <;> cases hq <;> exact hcheck
    | writing _ asks =>
      obtain rfl | rfl | ⟨_, -, hconcerns⟩ := asks_writing_request asks
      · cases hq
      · cases hq
      · cases q <;> cases hq <;> exact hconcerns
    | concluding ends =>
      rw [call?_of_isOfConclusion ends] at hq
      cases hq
  | job n =>
    obtain ⟨s₁, run₁, facing⟩ := run.faced .asked
    cases facing with
    | checking epoch => cases epoch
    | writing epoch => cases epoch
    | fetching job mem next program_eq =>
      cases run₁.accounts with
      | fetching checked answered selected launched =>
        obtain ⟨job, hjob, hpath⟩ := launched.threads _ mem
        rw [program_eq] at hpath
        obtain ⟨rfl | ⟨_, rfl⟩, -⟩ := asks_fetchOne ⟨next, hpath⟩
        · cases hq
          exact ⟨_, run.selections_stay selected, List.mem_of_getElem? hjob, rfl⟩
        · cases hq

/-- **Every selected target is fetched.** -/
theorem Run.fetch_mem_of_job (run : Run p trigger t (.ended epoch)) (hs : jobs ∈ selections t)
    {target : FetchTarget} {v : Version} (hjob : (target, v) ∈ jobs) :
    Call.fetch target v p.unzip ∈ calls t := by
  obtain ⟨m, stored, sels, results, settled, completed⟩ :=
    run.completed_of_selected (List.ne_nil_of_mem hs)
  obtain rfl : jobs = sels.flatMap Selection.jobs := by simpa [completed.selections_eq] using hs
  obtain ⟨n, hn⟩ := List.mem_iff_getElem?.1 hjob
  have hlt : n < results.length := by
    rw [completed.fetched.length_eq]
    exact (List.getElem?_eq_some_iff.1 hn).1
  obtain ⟨job, hjob', hends⟩ := completed.fetched.result n _ (List.getElem?_eq_getElem hlt)
  obtain rfl := Option.some.inj (hn.symm.trans hjob')
  simp only [fetchOne, ends_bind, ends_pure] at hends
  obtain ⟨k, _, ⟨attempts, payload⟩, hsplit, hk, rfl, -⟩ := hends
  obtain ⟨ending, hmem⟩ := exists_attempt_of_ends_withRetry hk
  rw [List.append_nil] at hsplit
  have hrequest : Request.attempt (.fetch target v p.unzip) p.fetchTimeout ∈ requests (.job n) t := by
    rw [run.answered_all, hsplit]
    exact List.mem_map_of_mem hmem
  exact mem_calls.2 ⟨_, _, mem_requests.1 hrequest, rfl⟩

/-! ## What is asked for a kind that has not changed -/

/-- What is asked of the stores for a kind of which the advertised version is committed. -/
structure Refetching (p : SyncPolicy) (t : List Moment) (kind : DataKind) (v : Version) : Prop where
  /-- Only targets that were found absent are fetched. -/
  fetched : ∀ target v' unzip, target.kind = kind → Call.fetch target v' unzip ∈ calls t →
    v' = v ∧ target ∈ p.targets kind ∧ Brought t (.exist (target.key v)) false
  /-- Only they are written, under the same version. -/
  written : ∀ target v' payload lifetime, target.kind = kind →
    Call.write (FetchTarget.key target v') payload lifetime ∈ calls t →
      v' = v ∧ target ∈ p.targets kind ∧ Brought t (.exist (target.key v)) false
  /-- No baseline is read. -/
  unread : ∀ target v', target.kind = kind → Call.read (FetchTarget.key target v') ∉ calls t
  /-- No entry is removed. -/
  unremoved : ∀ target v', target.kind = kind →
    Call.invalidate (FetchTarget.key target v') ∉ calls t
  committed : ∀ v', Call.commit kind v' ∈ calls t → v' = v
  /-- The stored version is the one from before. -/
  version_eq : ∀ start w, Follows start t w → w.versions.get kind = start.versions.get kind
  /-- Every entry but those that were found absent is kept, with its payload and its expiry. -/
  keeps : ∀ start w, Follows start t w → start.cache.Distinct → ∀ target v', target.kind = kind →
    ¬ (v' = v ∧ Brought t (.exist (target.key v)) false) → start.Keeps w (FetchTarget.key target v')

/-- While a restored kind is processed, nothing is read. -/
theorem not_read_of_restored {results : List Fetched} {r : KindReport} {l : List Exchange}
    {key : CacheKey} {limit : Duration} (hr : r.restored = true) :
    ¬ (processKind p results r).Asks l (.call (.read key) limit) := by
  intro hasks
  obtain hasks | ⟨_, _, _, -, -, hasks⟩ := asks_processKind hasks
  · obtain ⟨_, f, _, _, _, _, -, -, -, hasks⟩ := asks_writeTargets hasks
    obtain ⟨payload, -, ⟨-, heq⟩ | ⟨_, -, hasks⟩ | ⟨_, _, -, -, heq⟩⟩ := asks_writeTarget hasks
    · cases heq
    · rw [comparison, if_pos hr] at hasks
      exact asks_pure.1 hasks
    · cases heq
  · obtain ⟨-, ⟨-, heq⟩ | ⟨-, heq⟩ | ⟨_, -, hasks⟩⟩ := asks_commitKind hasks
    · cases heq
    · cases heq
    · obtain ⟨_, -, -, _, -, heq⟩ := asks_expirePrevious hasks
      cases heq

/-- A job for a kind that has not changed is one for a target that was found absent. -/
theorem Settled.absent_of_job {sels : List Selection} (hs : Settled p t m stored sels)
    (hsame : stored.get kind = some (m.latest kind)) {target : FetchTarget} {v : Version}
    (hkind : target.kind = kind) : (target, v) ∈ sels.flatMap Selection.jobs ↔
      v = m.latest kind ∧ target ∈ p.targets kind ∧
        Brought t (.exist (target.key (m.latest kind))) false := by
  subst hkind
  rw [hs.mem_jobs_iff_due]
  refine and_congr_right fun hv => ?_
  subst hv
  exact and_congr_right fun _ => ⟨fun hdue => hdue hsame, fun habsent _ => habsent⟩

section

variable (hm : Brought t .metadata m) (hs : Brought t .versions stored)
  (hsame : stored.get kind = some (m.latest kind))

include hm hs hsame

theorem Run.absent_of_fetch (run : Run p trigger t s) {target : FetchTarget} {v : Version}
    {unzip : Bool} (hkind : target.kind = kind) (hc : Call.fetch target v unzip ∈ calls t) :
    v = m.latest kind ∧ target ∈ p.targets kind ∧
      Brought t (.exist (target.key (m.latest kind))) false := by
  obtain ⟨jobs, hselections, hjob, -⟩ := run.job_of_fetch hc
  obtain ⟨m', stored', sels, settled, rfl⟩ := run.settled_of_selections hselections
  obtain rfl := (settled.advertised m).1 hm
  obtain rfl := (settled.committed stored).1 hs
  exact (settled.absent_of_job hsame hkind).1 hjob

theorem Run.absent_of_write (run : Run p trigger t s) {target : FetchTarget} {v : Version}
    {payload : Json} {lifetime : Duration} (hkind : target.kind = kind)
    (hc : Call.write (target.key v) payload lifetime ∈ calls t) :
    v = m.latest kind ∧ target ∈ p.targets kind ∧
      Brought t (.exist (target.key (m.latest kind))) false := by
  obtain ⟨past, worker, q, rest, rfl, hq⟩ := exists_of_mem_calls hc
  obtain ⟨rfl, e, jobs, results, r, l, f, d, c, hp, -, hf, hfkind, -, hkey, -⟩ :=
    run.asked_write .asked hq
  obtain ⟨rfl, rfl⟩ := FetchTarget.key_inj hkey
  obtain ⟨sels, settled, rfl, hnew, -⟩ := hp.settled run hm hs
  obtain rfl : r.kind = kind := hfkind.symm.trans hkind
  obtain ⟨writes, -, -⟩ := hp
  obtain ⟨v', hjob⟩ := writes.fetched.job_of_mem hf
  obtain ⟨-, habsent⟩ := (settled.absent_of_job hsame hkind).1 hjob
  exact ⟨hnew, habsent⟩

/-- The kind is restored, so its targets are not compared. -/
theorem Run.not_read (run : Run p trigger t s) {target : FetchTarget} {v : Version}
    (hkind : target.kind = kind) : Call.read (target.key v) ∉ calls t := by
  intro hc
  obtain ⟨past, worker, q, rest, rfl, hq⟩ := exists_of_mem_calls hc
  obtain ⟨rfl, ⟨limit, rfl⟩, e, jobs, results, r, l, hp, hasks, -⟩ := run.asked_kind .asked hq rfl
  obtain ⟨sels, settled, -, hnew, hold⟩ := hp.settled run hm hs
  obtain ⟨target', old, hown, hkey⟩ := asks_processKind_concerns hasks
  obtain ⟨rfl, rfl⟩ := FetchTarget.key_inj hkey
  obtain rfl : r.kind = kind := hown.symm.trans hkind
  have hrestored : r.restored = true := by
    rw [KindReport.restored, hold, hnew, hsame]
    exact beq_self_eq_true _
  exact not_read_of_restored hrestored hasks

theorem Run.not_removed_of_same (run : Run p trigger t s) {target : FetchTarget} {v : Version}
    (hkind : target.kind = kind) : Call.invalidate (target.key v) ∉ calls t := by
  intro hc
  obtain ⟨past, worker, q, rest, rfl, hq⟩ := exists_of_mem_calls hc
  obtain ⟨e, jobs, results, r, l, k, old, target', hp, hwas, hne, hown, hkey⟩ :=
    run.asked_invalidate .asked hq
  obtain ⟨rfl, rfl⟩ := FetchTarget.key_inj hkey
  obtain ⟨sels, settled, -, hnew, hold⟩ := hp.settled run hm hs
  obtain rfl : r.kind = kind := hown.symm.trans hkind
  rw [hold, hsame, Option.some.injEq] at hwas
  rw [hnew] at hne
  exact hne hwas.symm

theorem Run.commit_same (run : Run p trigger t s) {v : Version} (hc : Call.commit kind v ∈ calls t) :
    v = m.latest kind := by
  obtain ⟨past, worker, q, rest, rfl, hq⟩ := exists_of_mem_calls hc
  obtain ⟨rfl, e, jobs, results, r, l, targets, hp, -, -, rfl, rfl, -⟩ := run.asked_commit .asked hq
  obtain ⟨sels, settled, -, hnew, -⟩ := hp.settled run hm hs
  exact hnew

/-- **What is asked for a kind that has not changed**, at any time of an epoch. -/
theorem Run.refetching (run : Run p trigger t s) : Refetching p t kind (m.latest kind) where
  fetched target v unzip hkind hc := run.absent_of_fetch hm hs hsame hkind hc
  written target v payload lifetime hkind hc := run.absent_of_write hm hs hsame hkind hc
  unread target v hkind := run.not_read hm hs hsame hkind
  unremoved target v hkind := run.not_removed_of_same hm hs hsame hkind
  committed v hc := run.commit_same hm hs hsame hc
  version_eq := by
    intro start w follows
    have run' : Run p trigger (t ++ []) s := by simpa using run
    have htracked := follows.tracked run'
    by_cases hcommitted : ∃ v, Brought t (.commit kind v) ()
    · obtain ⟨v, hb⟩ := hcommitted
      obtain rfl := run.commit_same hm hs hsame (run.mem_calls_of_brought hb rfl)
      rw [htracked.committed kind _ hb, ← htracked.told stored hs, hsame]
    · exact htracked.unchanged kind fun v hb => hcommitted ⟨v, hb⟩
  keeps := by
    intro start w follows hd target v hkind hnot
    refine follows.keeps hd fun worker e he touches => ?_
    cases touches with
    | written brings =>
      obtain ⟨rfl, -, habsent⟩ := run.absent_of_write hm hs hsame hkind
        (run.mem_calls_of_brought ⟨worker, e, he, brings⟩ rfl)
      exact hnot ⟨rfl, habsent⟩
    | removed brings =>
      exact run.not_removed_of_same hm hs hsame hkind
        (run.mem_calls_of_brought ⟨worker, e, he, brings⟩ rfl)

end

/-! ## What an epoch has done when it is over -/

/-- What an epoch that is over has done for a kind of which the advertised version is committed. -/
structure Restored (p : SyncPolicy) (t : List Moment) (kind : DataKind) (v : Version)
    (epoch : Epoch) (targets : List FetchTarget) : Prop where
  /-- The targets of the kind that were found absent, in processing order. A lookup that fails or
  takes too long finds nothing absent. -/
  sublist : targets.Sublist (p.targets kind)
  mem_targets : ∀ target, target ∈ targets ↔
    target ∈ p.targets kind ∧ Brought t (.exist (target.key v)) false
  /-- Every target of the kind is looked up. -/
  looked_up : ∀ target ∈ p.targets kind, Call.exist (target.key v) ∈ calls t
  /-- They are selected and no others. -/
  jobs_eq : ((selections t).flatten.filter fun job => job.1.kind = kind) = targets.map (·, v)
  /-- They are fetched and no others. Once the epoch is cancelled, such a fetch is given up at once. -/
  fetched : ∀ target, target ∈ targets ↔
    target.kind = kind ∧ ∃ v' unzip, Call.fetch target v' unzip ∈ calls t
  /-- The kind is reported when there are any. -/
  reported : kind ∉ epoch.kinds.map (·.kind) ↔ targets = []
  reports : ∀ r ∈ epoch.kinds, r.kind = kind → r.oldVersion = some v ∧ r.newVersion = v ∧
    r.targets.map (·.target) = targets
  /-- Nothing is compared. -/
  uncompared : ∀ x ∈ epoch.targets, x.target.kind = kind → x.comparison = none
  changes_eq : epoch.changes =
    Epoch.knownChanges (epoch.targets.filter fun x => x.target.kind ≠ kind)
  unknown : ∀ target ∈ epoch.unknownChanges, target.kind ≠ kind

/-- What the check has settled is what has been selected and reported. -/
theorem Run.exists_settled (run : Run p trigger t (.ended epoch)) (hm : Brought t .metadata m)
    (hs : Brought t .versions stored) : ∃ sels, Settled p t m stored sels ∧
      (selections t).flatten = sels.flatMap Selection.jobs ∧
      epoch.kinds.map (·.kind) = sels.map (·.kind) := by
  cases run.closed with
  | failed _ _ _ untold => exact absurd hs (untold m stored hm)
  | idle kinds_eq _ settled unselected =>
    obtain rfl := (settled.advertised m).1 hm
    obtain rfl := (settled.committed stored).1 hs
    exact ⟨[], settled, by rw [unselected]; rfl, by rw [kinds_eq]; rfl⟩
  | completed settled completed =>
    obtain rfl := (settled.advertised m).1 hm
    obtain rfl := (settled.committed stored).1 hs
    exact ⟨_, settled, by rw [completed.selections_eq, List.flatten_singleton], completed.kinds_eq⟩

/-- A target that is compared is one of a kind that is not restored. -/
theorem Run.not_restored_of_compared (run : Run p trigger t (.ended epoch)) {r : KindReport}
    (hr : r ∈ epoch.kinds) {x : TargetReport} (hx : x ∈ r.targets) {c : Comparison}
    (hc : x.comparison = some c) : r.restored = false := by
  obtain ⟨m, stored, sels, results, sel, k, -, -, -, hp⟩ := run.processed_of_report hr
  obtain ⟨-, hold, hnew, k', -, hcourses⟩ := report_of_ends_processKind hp.ends
  obtain ⟨f, -, l, -, hcourse⟩ := hcourses.exists_of_mem.2 x hx
  obtain ⟨payload, l', -, -, hends⟩ := hcourse.compared hc
  rw [KindReport.restored, hold, hnew]
  exact (ends_comparison hends).1

/-- What an epoch tells of changes is told by the reports of its targets. -/
theorem Run.changes_eq (run : Run p trigger t (.ended epoch)) :
    epoch.changes = Epoch.knownChanges epoch.targets ∧
      epoch.unknownChanges = Epoch.unknownTargets epoch.targets := by
  obtain @⟨_, _, _, _, _, _, _, -, -, -, -⟩ := run.passage
  exact ⟨rfl, rfl⟩

theorem Run.kind_of_mem (run : Run p trigger t (.ended epoch)) {r : KindReport}
    (hr : r ∈ epoch.kinds) {x : TargetReport} (hx : x ∈ r.targets) : x.target.kind = r.kind := by
  have hmem : x.target ∈ r.targets.map (·.target) := List.mem_map_of_mem hx
  rw [run.map_target_of_mem hr] at hmem
  exact of_decide_eq_true (List.mem_filter.1 hmem).2

theorem Run.restored (run : Run p trigger t (.ended epoch)) (hm : Brought t .metadata m)
    (hs : Brought t .versions stored) (hsame : stored.get kind = some (m.latest kind)) :
    Restored p t kind (m.latest kind) epoch
      (((selections t).flatten.map (·.1)).filter fun target => target.kind = kind) := by
  obtain ⟨sels, settled, hflat, hkinds⟩ := run.exists_settled hm hs
  have hjob : ∀ {target : FetchTarget} {v : Version}, target.kind = kind →
      ((target, v) ∈ (selections t).flatten ↔ v = m.latest kind ∧ target ∈ p.targets kind ∧
        Brought t (.exist (target.key (m.latest kind))) false) := by
    intro target v hkind
    rw [hflat]
    exact settled.absent_of_job hsame hkind
  have hversions : ∀ r ∈ epoch.kinds, r.kind = kind →
      r.oldVersion = some (m.latest kind) ∧ r.newVersion = m.latest kind := by
    intro r hr hkind
    obtain ⟨m', stored', hm', hs', hnew, hold⟩ := run.reports_eq.2 r hr
    obtain rfl := (hm' m).1 hm
    obtain rfl := (hs' stored).1 hs
    rw [hold, hnew, hkind]
    exact ⟨hsame, rfl⟩
  have huncompared : ∀ x ∈ epoch.targets, x.target.kind = kind → x.comparison = none := by
    intro x hx hkind
    obtain ⟨r, hr, hx⟩ := List.mem_flatMap.1 hx
    obtain ⟨hold, hnew⟩ := hversions r hr ((run.kind_of_mem hr hx).symm.trans hkind)
    by_contra hcompared
    obtain ⟨c, hc⟩ := Option.ne_none_iff_exists'.1 hcompared
    have hrestored := run.not_restored_of_compared hr hx hc
    simp [KindReport.restored, hold, hnew] at hrestored
  have hmem : ∀ {target : FetchTarget},
      (target ∈ ((selections t).flatten.map (·.1)).filter fun target => target.kind = kind) ↔
        target ∈ p.targets kind ∧ Brought t (.exist (target.key (m.latest kind))) false := by
    intro target
    rw [List.mem_filter, decide_eq_true_iff, List.mem_map]
    constructor
    · rintro ⟨⟨⟨target, v⟩, hflat, rfl⟩, hkind⟩
      exact ((hjob hkind).1 hflat).2
    · rintro ⟨ht, habsent⟩
      have hkind := SyncPolicy.kind_of_mem_targets ht
      exact ⟨⟨_, (hjob hkind).2 ⟨rfl, ht, habsent⟩, rfl⟩, hkind⟩
  refine
    { sublist := p.filter_targets kind ▸ run.selected_sublist.filter _
      mem_targets := fun target => hmem
      looked_up := fun target ht => ?_
      jobs_eq := ?_
      fetched := ?_
      reported := ?_
      reports := fun r hr hkind => ?_
      uncompared := huncompared
      changes_eq := ?_
      unknown := fun target ht hkind => ?_ }
  · obtain ⟨e, he, hcall⟩ := settled.looked_up kind hsame target ht
    exact run.mem_calls_of_exchange he hcall
  · have hown : ∀ job ∈ (selections t).flatten.filter (fun job => job.1.kind = kind),
        (job.1, m.latest kind) = job := by
      rintro ⟨target, v⟩ hmem
      obtain ⟨hflat, hkind⟩ := List.mem_filter.1 hmem
      rw [((hjob (of_decide_eq_true hkind)).1 hflat).1]
    rw [List.filter_map, List.map_map]
    exact ((List.map_congr_left hown).trans (List.map_id _)).symm
  · intro target
    constructor
    · intro ht
      obtain ⟨ht, habsent⟩ := hmem.1 ht
      have hkind := SyncPolicy.kind_of_mem_targets ht
      obtain ⟨jobs, hselections, hjob⟩ :=
        List.mem_flatten.1 ((hjob hkind).2 ⟨rfl, ht, habsent⟩)
      exact ⟨hkind, _, _, run.fetch_mem_of_job hselections hjob⟩
    · rintro ⟨hkind, v, unzip, hc⟩
      exact hmem.2 (run.absent_of_fetch hm hs hsame hkind hc).2
  · rw [hkinds, settled.kind_mem_iff, ← hflat]
    simp only [List.filter_eq_nil_iff, List.forall_mem_map, decide_eq_true_iff, not_exists, not_and]
  · rw [run.map_target_of_mem hr, hkind]
    exact ⟨(hversions r hr hkind).1, (hversions r hr hkind).2, rfl⟩
  · refine run.changes_eq.1.trans (Epoch.knownChanges_filter fun x hx hnot => ?_).symm
    exact huncompared x hx (by simpa using hnot)
  · rw [run.changes_eq.2, Epoch.unknownTargets, List.mem_filterMap] at ht
    obtain ⟨x, hx, hunknown⟩ := ht
    split at hunknown
    · next hcomparison =>
      cases hunknown
      rw [huncompared x hx hkind] at hcomparison
      cases hcomparison
    · cases hunknown

/-- **An epoch restores what has gone from the cache of a kind that has not changed, and nothing
else of it.** At any time, only absent entries have been fetched or written, under the stored version,
and all others are kept. When the epoch is over, all of the absent ones have been fetched and reported,
and no change is told of the kind. -/
theorem Run.restores (run : Run p trigger t s) (hm : Brought t .metadata m)
    (hs : Brought t .versions stored) (hsame : stored.get kind = some (m.latest kind)) :
    Refetching p t kind (m.latest kind) ∧
      ∀ epoch, s = .ended epoch → ∃ targets, Restored p t kind (m.latest kind) epoch targets := by
  refine ⟨run.refetching hm hs hsame, ?_⟩
  rintro epoch rfl
  exact ⟨_, run.restored hm hs hsame⟩

/-- Some entries have gone from the cache. -/
def Conduct.evicted (o : Conduct) (gone : CacheKey → Bool) : Conduct where
  answer
    | cancelled, .call (.exist key) limit =>
      if gone key then some (.ok false) else o.answer cancelled (.call (.exist key) limit)
    | cancelled, r => o.answer cancelled r
  admits cancelled r := by
    cases r with
    | call c => cases c <;> trivial
    | publish | isCancelled | clock | announce | remember | wait | attempt | pause | compute =>
      exact o.admits cancelled _
  cancels := o.cancels

/-- What happens in the check happens in the epoch. -/
theorem Conduct.mem_play_of_checking {o : Conduct} {x : Moment}
    (hx : x ∈ (o.drive .epoch false (checking p trigger)).history) :
    x ∈ (o.play p trigger false).history := by
  unfold play
  dsimp only
  split <;> simp [hx]

/-- One of six entries has gone, and is fetched again. -/
theorem Run.restores_evicted :
    ∃ t epoch, Run .default .scheduled t (.ended epoch) ∧
      Brought t .metadata ⟨⟨"2"⟩, ⟨"1"⟩⟩ ∧ Brought t .versions ⟨some ⟨"2"⟩, some ⟨"1"⟩⟩ ∧
      Refetching .default t .gameData ⟨"2"⟩ ∧
      Restored .default t .gameData ⟨"2"⟩ epoch [.gameData .units] := by
  let o := (Conduct.smooth ⟨⟨"2"⟩, ⟨"1"⟩⟩ ⟨some ⟨"2"⟩, some ⟨"1"⟩⟩ (.object [])
    fun _ => false).evicted fun key => key = (FetchTarget.gameData .units).key ⟨"2"⟩
  let played := o.play .default .scheduled false
  have run : Run .default .scheduled played.history (.ended played.result) := Conduct.play_run false
  have hm : Brought played.history .metadata ⟨⟨"2"⟩, ⟨"1"⟩⟩ :=
    ⟨.epoch, _, Conduct.mem_play_of_checking (List.mem_of_getElem? (i := 5) rfl), .attempt _⟩
  have hs : Brought played.history .versions ⟨some ⟨"2"⟩, some ⟨"1"⟩⟩ :=
    ⟨.epoch, _, Conduct.mem_play_of_checking (List.mem_of_getElem? (i := 7) rfl), .call _⟩
  have hjobs : selections played.history = [[(.gameData .units, ⟨"2"⟩)]] := by decide +kernel
  have hsame : (⟨some ⟨"2"⟩, some ⟨"1"⟩⟩ : StoredVersions).get .gameData =
      some ((⟨⟨"2"⟩, ⟨"1"⟩⟩ : Metadata).latest .gameData) := rfl
  obtain ⟨refetching, restored⟩ := Run.restores run hm hs hsame
  obtain ⟨targets, restored⟩ := restored _ rfl
  obtain rfl : targets = [.gameData .units] := by
    have heq : targets.map (·, (⟨"2"⟩ : Version)) = [(.gameData .units, ⟨"2"⟩)] :=
      restored.jobs_eq.symm.trans (by rw [hjobs]; rfl)
    simpa [Function.comp_def] using congrArg (List.map Prod.fst) heq
  exact ⟨_, _, run, hm, hs, refetching, restored⟩

end Engine

end ContentSync
