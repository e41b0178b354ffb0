import ContentSync.Proofs.Engine.Asked

/-!
# What precedes an effect

An epoch writes payloads, commits versions and removes entries. What is known of its history when it
does so:

* `Processing.selection` — the kind was selected by the check, with its targets;
* `Processing.fetched` — the payloads of a kind are results of its jobs;
* `Run.asked_write` — a payload is written after a look and a comparison;
* `Run.asked_commit` — a kind is committed after all its targets were written, and after a look;
* `Run.asked_invalidate` — entries are removed after the commit.
-/

set_option autoImplicit false

namespace ContentSync.Engine

open Program

variable {p : SyncPolicy} {trigger : Trigger} {t u : List Moment} {s : Situation}
  {epoch : Epoch} {jobs : List Job} {results : List Fetched} {r : KindReport}
  {l : List Exchange}

/-- A target has to be fetched when its version has changed, and otherwise when its entry was found
to be absent. -/
def Due (p : SyncPolicy) (t : List Moment) (stored : StoredVersions) (kind : DataKind)
    (v : Version) (target : FetchTarget) : Prop :=
  target ∈ p.targets kind ∧
    (stored.get kind = some v → Brought t (.exist (target.key v)) false)

/-- The check has selected a kind: what it was told, and which targets it has chosen. -/
structure KindSelected (p : SyncPolicy) (t : List Moment) (jobs : List Job) (m : Metadata)
    (stored : StoredVersions) (kind : DataKind) (v : Version) : Prop where
  advertised : ∀ m', Brought t .metadata m' ↔ m' = m
  committed : ∀ stored', Brought t .versions stored' ↔ stored' = stored
  version_eq : v = m.latest kind
  selections_eq : selections t = [jobs]
  mem_jobs : ∀ target version, target.kind = kind →
    ((target, version) ∈ jobs ↔ version = v ∧ Due p t stored kind v target)

/-- A kind that is processed was selected by the check. -/
theorem Processing.selection (hp : Processing p trigger t epoch jobs results r l)
    (run : Run p trigger t s) :
    ∃ m stored, KindSelected p t jobs m stored r.kind r.newVersion ∧
      r.oldVersion = stored.get r.kind := by
  obtain ⟨writes, kinds_eq, -⟩ := hp
  obtain ⟨m, stored, sels, hsel⟩ := ends_checking_ready writes.checked
  obtain ⟨hmeta, hversions, hexist⟩ := writes.brought_iff run
  have hmem : r ∈ sels.map Selection.report := by
    rw [← hsel.kinds_eq, kinds_eq]
    simp
  obtain ⟨sel, hin, rfl⟩ := List.mem_map.1 hmem
  have hfaithful := hsel.faithful sel hin
  refine ⟨m, stored, ⟨fun m' => (hmeta m').trans (hsel.advertisement_mem m'),
    fun s' => (hversions s').trans (hsel.committal_mem s'), hfaithful.advertised_eq,
    writes.selected, fun target version hkind => ?_⟩, hfaithful.committed_eq⟩
  change target.kind = sel.kind at hkind
  change _ ↔ version = sel.advertised ∧ Due p t stored sel.kind sel.advertised target
  rw [hsel.mem_jobs_iff hin hkind, hfaithful.mem_targets, Due, hfaithful.advertised_eq, hexist,
    ← eq_comm, absence]

/-- The result of a job, with what was fetched for it. -/
theorem Results.fetched (hr : Results p t jobs results) {f : Fetched} (hf : f ∈ results)
    {payload : Json} (hp : f.payload = .ok payload) :
    ∃ version, (f.target, version) ∈ jobs ∧ Brought t (.fetch f.target version p.unzip) payload := by
  obtain ⟨i, hi⟩ := List.mem_iff_getElem?.1 hf
  obtain ⟨⟨target, version⟩, hjob, hends⟩ := hr.result i f hi
  obtain ⟨htarget, hiff⟩ := ends_fetchOne_ok_iff hends payload
  rw [htarget]
  refine ⟨version, List.mem_of_getElem? hjob, .job i, _, mem_exchanges.1 (hiff.1 hp), ?_⟩
  exact .attempt _

/-- A result belongs to a job. -/
theorem Results.job_of_mem (hr : Results p t jobs results) {f : Fetched} (hf : f ∈ results) :
    ∃ version, (f.target, version) ∈ jobs := by
  obtain ⟨i, hi⟩ := List.mem_iff_getElem?.1 hf
  obtain ⟨⟨target, version⟩, hjob, hends⟩ := hr.result i f hi
  rw [(ends_fetchOne_ok_iff hends .null).1]
  exact ⟨version, List.mem_of_getElem? hjob⟩

theorem Results.exists_of_job (hr : Results p t jobs results) {job : Job} (hj : job ∈ jobs) :
    ∃ f ∈ results, f.target = job.1 := by
  obtain ⟨i, hi⟩ := List.mem_iff_getElem?.1 hj
  have hlt : i < results.length := by
    rw [hr.length_eq]
    exact (List.getElem?_eq_some_iff.1 hi).1
  obtain ⟨job', hjob, hends⟩ := hr.result i _ (List.getElem?_eq_getElem hlt)
  rw [hi] at hjob
  cases hjob
  exact ⟨results[i], List.getElem_mem hlt, (ends_fetchOne_ok_iff hends .null).1⟩

/-- What was fetched is the result of its job. -/
theorem Results.exists_of_brought (hr : Results p t jobs results) (run : Run p trigger t s)
    {target : FetchTarget} {v : Version} {payload : Json}
    (hb : Brought t (.fetch target v p.unzip) payload) :
    ∃ f ∈ results, f.target = target ∧ f.payload = .ok payload := by
  obtain ⟨w, e, he, hb⟩ := hb
  rw [← mem_exchanges] at he
  cases w with
  | epoch =>
    obtain hcheck | ⟨_, heq | heq | ⟨_, -, hconcerns⟩⟩ | hends := run.answered_epoch he
    · cases hb <;> exact hcheck.elim
    · cases hb <;> cases heq
    · cases hb <;> cases heq
    · cases hb <;> exact hconcerns.elim
    · cases hb <;> cases hends
  | job n =>
    have hlt : n < results.length := by
      rw [hr.length_eq]
      refine Nat.lt_of_not_le fun hle => ?_
      rw [hr.beyond n hle] at he
      cases he
    obtain ⟨job, hjob, hends⟩ := hr.result n _ (List.getElem?_eq_getElem hlt)
    obtain ⟨_, hasks⟩ := Path.asks_of_mem hends he
    have hrequest := (asks_fetchOne hasks).1
    cases hb with
    | wait | call => simp at hrequest
    | attempt limit =>
      simp only [Request.attempt.injEq, Call.fetch.injEq, reduceCtorEq, exists_false,
        or_false] at hrequest
      obtain ⟨⟨rfl, rfl, -⟩, rfl⟩ := hrequest
      obtain ⟨htarget, hiff⟩ := ends_fetchOne_ok_iff hends payload
      exact ⟨results[n], List.getElem_mem hlt, htarget, hiff.2 he⟩

/-- A payload that is written was fetched for the version of its kind. -/
theorem Processing.fetched (hp : Processing p trigger t epoch jobs results r l)
    (run : Run p trigger t s) {f : Fetched} (hf : f ∈ results) (hkind : f.target.kind = r.kind)
    {payload : Json} (hpayload : f.payload = .ok payload) :
    (f.target, r.newVersion) ∈ jobs ∧
      Brought t (.fetch f.target r.newVersion p.unzip) payload := by
  obtain ⟨m, stored, hselected, -⟩ := hp.selection run
  obtain ⟨writes, -, -⟩ := hp
  obtain ⟨version, hjob, hbrought⟩ := writes.fetched.fetched hf hpayload
  obtain ⟨rfl, -⟩ := (hselected.mem_jobs _ _ hkind).1 hjob
  exact ⟨hjob, hbrought⟩

/-- What was exchanged for a kind is part of the history. -/
theorem Processing.answered (hp : Processing p trigger t epoch jobs results r l) {e : Exchange}
    (he : e ∈ l) : Moment.answered .epoch e ∈ t := by
  obtain ⟨writes, -, -⟩ := hp
  rw [← mem_exchanges, writes.split]
  simp [he]

/-! ## Commits -/

/-- **A kind is committed after all its targets were written, and after a look.** -/
theorem Run.asked_commit {m : Moment} {w : Worker} {q : Request} {kind : DataKind} {v : Version}
    (run : Run p trigger (t ++ m :: u) s) (hm : m.Faces w q)
    (hq : q.call? = some (.commit kind v)) :
    w = .epoch ∧
      ∃ epoch jobs results r l targets,
        Processing p trigger t epoch jobs results r (l ++ [cancelAnswer false]) ∧
        (writeTargets p r (results.filter fun f => f.target.kind = r.kind)).Ends l targets ∧
        (∀ report ∈ targets, report.error = none) ∧ r.kind = kind ∧ r.newVersion = v ∧
        (Balanced t → t.getLast? = some (.answered .epoch (cancelAnswer false))) := by
  obtain ⟨rfl, ⟨limit, rfl⟩, epoch, jobs, results, r, l, hp, hasks, hlast⟩ :=
    run.asked_kind hm hq rfl
  refine ⟨rfl, epoch, jobs, results, r, ?_⟩
  obtain hasks | ⟨l, g, targets, rfl, hcourses, hasks⟩ := asks_processKind hasks
  · have hcalls := (asks_writeTargets_concerns hasks).2 _ _ rfl
    simp at hcalls
  obtain ⟨hfull, ⟨-, heq⟩ | ⟨rfl, heq⟩ | ⟨k, -, hasks⟩⟩ := asks_commitKind hasks
  · cases heq
  · cases heq
    refine ⟨l, targets, hp, hcourses, ?_, rfl, rfl, fun hb => hlast hb _ (by simp)⟩
    simpa [KindReport.fullyWritten, TargetReport.succeeded] using
      (Bool.and_eq_true_iff.1 hfull).2
  · obtain ⟨_, -, -, _, -, heq⟩ := asks_expirePrevious hasks
    cases heq

/-! ## Writes -/

/-- **A payload is written after a look and a comparison.** -/
theorem Run.asked_write {m : Moment} {w : Worker} {q : Request} {key : CacheKey} {payload : Json}
    {lifetime : Duration} (run : Run p trigger (t ++ m :: u) s) (hm : m.Faces w q)
    (hq : q.call? = some (.write key payload lifetime)) :
    w = .epoch ∧
      ∃ epoch jobs results r l f d c,
        Processing p trigger t epoch jobs results r (l ++ cancelAnswer false :: d) ∧
        (comparison p r f.target payload).Ends d c ∧ f ∈ results ∧ f.target.kind = r.kind ∧
        f.payload = .ok payload ∧ key = f.target.key r.newVersion ∧
        lifetime = p.lifetime r.kind := by
  obtain ⟨rfl, ⟨limit, rfl⟩, epoch, jobs, results, r, l, hp, hasks, -⟩ := run.asked_kind hm hq rfl
  refine ⟨rfl, epoch, jobs, results, r, ?_⟩
  obtain hasks | ⟨l, g, targets, rfl, -, hasks⟩ := asks_processKind hasks
  · obtain ⟨before, f, after, l, g, _, heq, rfl, -, hasks⟩ := asks_writeTargets hasks
    have hf : f ∈ results ∧ f.target.kind = r.kind := by
      have hmem : f ∈ results.filter fun f => f.target.kind = r.kind := by simp [heq]
      simpa using List.mem_filter.1 hmem
    obtain ⟨payload', hpayload, ⟨-, heq⟩ | ⟨_, -, hasks⟩ | ⟨d, c, rfl, hd, heq⟩⟩ :=
      asks_writeTarget hasks
    · cases heq
    · obtain heq | ⟨_, -, heq⟩ := asks_comparison hasks <;> cases heq
    · cases heq
      rw [hf.2]
      exact ⟨l, f, d, c, hp, hd, hf.1, hf.2, hpayload, rfl, rfl⟩
  · obtain ⟨-, ⟨-, heq⟩ | ⟨-, heq⟩ | ⟨k, -, hasks⟩⟩ := asks_commitKind hasks
    · cases heq
    · cases heq
    · obtain ⟨_, -, -, _, -, heq⟩ := asks_expirePrevious hasks
      cases heq

/-! ## Removals -/

/-- **Entries are removed after the commit, and they are of the version before.** -/
theorem Run.asked_invalidate {m : Moment} {w : Worker} {q : Request} {key : CacheKey}
    (run : Run p trigger (t ++ m :: u) s) (hm : m.Faces w q) (hq : q.call? = some (.invalidate key)) :
    ∃ epoch jobs results r l k old target,
      Processing p trigger t epoch jobs results r (l ++ cancelAnswer false ::
        ⟨.call (.commit r.kind r.newVersion) p.ioTimeout, some (.ok ())⟩ :: k) ∧
      r.oldVersion = some old ∧ old ≠ r.newVersion ∧ target.kind = r.kind ∧
      key = FetchTarget.key target old := by
  obtain ⟨rfl, ⟨limit, rfl⟩, epoch, jobs, results, r, l, hp, hasks, -⟩ := run.asked_kind hm hq rfl
  refine ⟨epoch, jobs, results, r, ?_⟩
  obtain hasks | ⟨l, g, targets, rfl, hcourses, hasks⟩ := asks_processKind hasks
  · have hcalls := (asks_writeTargets_concerns hasks).2 _ _ rfl
    simp at hcalls
  obtain ⟨-, ⟨-, heq⟩ | ⟨-, heq⟩ | ⟨k, rfl, hremoval⟩⟩ := asks_commitKind hasks
  · cases heq
  · cases heq
  · obtain ⟨old, hold, hne, report, hreport, heq⟩ := asks_expirePrevious hremoval
    cases heq
    exact ⟨l, k, old, report.target, hp, hold, hne, (ends_writeTargets hcourses).kind_eq report hreport,
      rfl⟩

end ContentSync.Engine
