import ContentSync.Proofs.Engine.Effects

/-!
# How epochs close

An epoch that is over has failed to learn the versions, has found nothing to fetch, or has processed
every kind that it had selected.

* `Settled` — what an epoch was told, and which kinds it has selected for it;
* `Processed` — a kind has been processed, and this is its report;
* `Completed` — every selected kind has been processed, and nothing else;
* `Completed.mem_targets_iff` — every selected target has its report;
* `Closed` / `Run.closed` — how an epoch that is over has come to its end;
* `Run.exists_processed` — every call for a kind was made for one of the reported kinds.
-/

set_option autoImplicit false

namespace ContentSync

namespace Engine

open Program

variable {p : SyncPolicy} {trigger : Trigger} {t : List Moment} {s : Situation} {epoch : Epoch}
  {m : Metadata} {stored : StoredVersions} {sels : List Selection} {results : List Fetched}

/-- What an epoch was told, and which kinds it has selected for it. -/
structure Settled (p : SyncPolicy) (t : List Moment) (m : Metadata) (stored : StoredVersions)
    (sels : List Selection) : Prop where
  advertised : ∀ m', Brought t .metadata m' ↔ m' = m
  committed : ∀ stored', Brought t .versions stored' ↔ stored' = stored
  nodup_kinds : (sels.map (·.kind)).Nodup
  selected : ∀ sel ∈ sels, sel.committed = stored.get sel.kind ∧
    sel.advertised = m.latest sel.kind ∧ sel.targets ≠ [] ∧
    ∀ target, target ∈ sel.targets ↔ Due p t stored sel.kind sel.advertised target
  /-- A kind that is not selected has lost nothing. -/
  intact : ∀ kind, kind ∉ sels.map (·.kind) → stored.get kind = some (m.latest kind) ∧
    ∀ target ∈ p.targets kind, ¬ Brought t (.exist (target.key (m.latest kind))) false
  /-- Every target of an unchanged version is looked up, and nothing else is. -/
  looked_up : ∀ kind, stored.get kind = some (m.latest kind) → ∀ target ∈ p.targets kind,
    ∃ e ∈ exchanges .epoch t, e.request.call? = some (.exist (target.key (m.latest kind)))
  exists_of_lookup : ∀ key found, Brought t (.exist key) found →
    ∃ kind, ∃ target ∈ p.targets kind, key = target.key (m.latest kind)

/-- A kind has been processed in some of the exchanges of an epoch, and this is its report. -/
structure Processed (p : SyncPolicy) (t : List Moment) (results : List Fetched) (sel : Selection)
    (report : KindReport) (k : List Exchange) : Prop where
  part : k ⊆ exchanges .epoch t
  ends : (processKind p results sel.report).Ends k report

/-- Every selected kind has been processed, and nothing else. -/
structure Completed (p : SyncPolicy) (t : List Moment) (epoch : Epoch) (sels : List Selection)
    (results : List Fetched) : Prop where
  ne_nil : sels ≠ []
  selections_eq : selections t = [sels.flatMap Selection.jobs]
  fetched : Results p t (sels.flatMap Selection.jobs) results
  kinds_eq : epoch.kinds.map (·.kind) = sels.map (·.kind)
  reports : ∀ sel ∈ sels, ∃ report ∈ epoch.kinds, ∃ k, Processed p t results sel report k
  origins : ∀ report ∈ epoch.kinds, ∃ sel ∈ sels, ∃ k, Processed p t results sel report k
  parts : ∀ e ∈ exchanges .epoch t, ∀ c, e.request.call? = some c → c.isOfKind = true →
    ∃ sel ∈ sels, ∃ report ∈ epoch.kinds, ∃ k, e ∈ k ∧ Processed p t results sel report k
  outcome_eq : epoch.outcome =
    some (if epoch.cancelled then .failure else .decide epoch.kinds)
  look : cancelAnswer epoch.cancelled ∈ exchanges .epoch t

/-- How an epoch that is over has come to its end. -/
inductive Closed (p : SyncPolicy) (t : List Moment) (epoch : Epoch) : Prop
  /-- The versions could not be learned. -/
  | failed (kinds_eq : epoch.kinds = []) (outcome_eq : epoch.outcome = some .failure)
    (fault : ∃ e ∈ exchanges .epoch t, e.Failed)
    (untold : ∀ m stored, Brought t .metadata m → ¬ Brought t .versions stored)
    (unwritten : ∀ e ∈ exchanges .epoch t, ∀ c, e.request.call? = some c → c.isOfKind = false)
  /-- There was nothing to fetch. -/
  | idle {m : Metadata} {stored : StoredVersions} (kinds_eq : epoch.kinds = [])
    (outcome_eq : epoch.outcome = some .unchanged) (settled : Settled p t m stored [])
    (unselected : selections t = [])
    (unwritten : ∀ e ∈ exchanges .epoch t, ∀ c, e.request.call? = some c → c.isOfKind = false)
  | completed {m : Metadata} {stored : StoredVersions} {sels : List Selection}
    {results : List Fetched} (settled : Settled p t m stored sels)
    (completed : Completed p t epoch sels results)

/-! ## Reports -/

theorem Settled.mem_jobs_iff (hs : Settled p t m stored sels) {sel : Selection} (hsel : sel ∈ sels)
    {target : FetchTarget} {v : Version} (hkind : target.kind = sel.kind) :
    (target, v) ∈ sels.flatMap Selection.jobs ↔ v = sel.advertised ∧ target ∈ sel.targets := by
  refine mem_flatMap_jobs_iff hs.nodup_kinds (fun other hother target ht => ?_) hsel hkind
  obtain ⟨-, -, -, hmem⟩ := hs.selected other hother
  exact SyncPolicy.kind_of_mem_targets ((hmem target).1 ht).1

theorem Processed.report_eq {sel : Selection} {report : KindReport} {k : List Exchange}
    (hp : Processed p t results sel report k) :
    report.kind = sel.kind ∧ report.oldVersion = sel.committed ∧
      report.newVersion = sel.advertised := by
  obtain ⟨hkind, hold, hnew, -⟩ := report_of_ends_processKind hp.ends
  exact ⟨hkind, hold, hnew⟩

/-- **Every selected target has its report**, and no other one. -/
theorem Completed.mem_targets_iff (hc : Completed p t epoch sels results)
    (hs : Settled p t m stored sels) {sel : Selection} (hsel : sel ∈ sels) {report : KindReport}
    {k : List Exchange} (hp : Processed p t results sel report k) {target : FetchTarget} :
    (∃ x ∈ report.targets, x.target = target) ↔ target ∈ sel.targets := by
  obtain ⟨-, -, -, k', -, hcourses⟩ := report_of_ends_processKind hp.ends
  have hreports : (∃ x ∈ report.targets, x.target = target) ↔
      ∃ f ∈ results, f.target.kind = sel.kind ∧ f.target = target := by
    rw [← List.mem_map, hcourses.map_target]
    simp only [List.mem_map, List.mem_filter, decide_eq_true_eq, and_assoc]
    rfl
  rw [hreports]
  constructor
  · rintro ⟨f, hf, hkind, rfl⟩
    obtain ⟨v, hjob⟩ := hc.fetched.job_of_mem hf
    exact ((hs.mem_jobs_iff hsel hkind).1 hjob).2
  · intro ht
    obtain ⟨-, -, -, hmem⟩ := hs.selected sel hsel
    have hkind := SyncPolicy.kind_of_mem_targets ((hmem target).1 ht).1
    obtain ⟨f, hf, rfl⟩ := hc.fetched.exists_of_job ((hs.mem_jobs_iff hsel hkind).2 ⟨rfl, ht⟩)
    exact ⟨f, hf, hkind, rfl⟩

/-- A payload that was fetched for a kind is one of its advertised version. -/
theorem Completed.brought_of_result (hc : Completed p t epoch sels results)
    (hs : Settled p t m stored sels) {sel : Selection} (hsel : sel ∈ sels) {f : Fetched}
    (hf : f ∈ results) (hkind : f.target.kind = sel.kind) {payload : Json}
    (hp : f.payload = .ok payload) :
    Brought t (.fetch f.target sel.advertised p.unzip) payload := by
  obtain ⟨v, hjob, hb⟩ := hc.fetched.fetched hf hp
  obtain ⟨rfl, -⟩ := (hs.mem_jobs_iff hsel hkind).1 hjob
  exact hb

/-- **Every target of a committed kind was fetched and written**, for the advertised version. -/
theorem Completed.written_of_committed (hc : Completed p t epoch sels results)
    (hs : Settled p t m stored sels) {sel : Selection} (hsel : sel ∈ sels) {report : KindReport}
    {k : List Exchange} (hp : Processed p t results sel report k)
    (hcommitted : report.committed = true) {target : FetchTarget} (ht : target ∈ sel.targets) :
    ∃ payload, Brought t (.fetch target sel.advertised p.unzip) payload ∧
      Brought t (.write (target.key sel.advertised) payload (p.lifetime target.kind)) () := by
  obtain ⟨-, -, -, hmem⟩ := hs.selected sel hsel
  have hkind := SyncPolicy.kind_of_mem_targets ((hmem target).1 ht).1
  obtain ⟨f, hf, rfl⟩ := hc.fetched.exists_of_job ((hs.mem_jobs_iff hsel hkind).2 ⟨rfl, ht⟩)
  obtain ⟨payload, hpayload, hwrite⟩ :=
    written_of_ends_processKind hp.ends hcommitted rfl hf hkind
  exact ⟨payload, hc.brought_of_result hs hsel hf hkind hpayload, .epoch, _,
    mem_exchanges.1 (hp.part hwrite), .call _⟩

/-- A kind that is reported as committed has been committed. -/
theorem Processed.brought_of_committed {sel : Selection} {report : KindReport}
    {k : List Exchange} (hp : Processed p t results sel report k)
    (hcommitted : report.committed = true) :
    Brought t (.commit sel.kind sel.advertised) () :=
  ⟨.epoch, _, mem_exchanges.1 (hp.part
    ((committed_of_ends_processKind hp.ends).1 hcommitted rfl)), .call _⟩

/-! ## The parts of an epoch that is over -/

/-- The check makes no call for a kind. -/
theorem Request.IsOfCheck.isOfKind_eq {r : Request} (hr : r.IsOfCheck p) {c : Call}
    (hc : r.call? = some c) : c.isOfKind = false := by
  cases r <;> cases hc <;> cases c <;> first | rfl | exact hr.elim

/-- The conclusion of an epoch makes no call. -/
theorem call?_of_isOfConclusion {r : Request} (hr : r.isOfConclusion = true) : r.call? = none := by
  cases r <;> first | rfl | cases hr

/-- What the check has surveyed is settled when no call of the check has been made since. -/
theorem Surveyed.settled {h k : List Exchange} {q : Program Checked}
    (hs : Surveyed p h m stored sels) (run : Run p trigger t s)
    (split : exchanges .epoch t = h ++ k) (checked : (checking p trigger).Path h q)
    (later : ∀ e ∈ k, ∀ c, e.request.call? = some c → c.isOfCheck = false) :
    Settled p t m stored sels := by
  obtain ⟨hmetadata, hversions, hexist⟩ := run.brought_iff_of_checked split checked later
  refine ⟨fun m' => (hmetadata m').trans (hs.advertisement_mem m'),
    fun stored' => (hversions stored').trans (hs.committal_mem stored'), hs.nodup_selected,
    fun sel hsel => ?_, fun kind hkind => ?_, fun kind hsame target ht => ?_,
    fun key found hb => hs.exists_of_lookup key _ ((hexist key found).1 hb)⟩
  · obtain ⟨hcommitted, hadvertised, hne, -, hmem⟩ := hs.faithful sel hsel
    refine ⟨hcommitted, hadvertised, hne, fun target => ?_⟩
    rw [hmem, Due, hadvertised, hexist, absence]
  · obtain ⟨hsame, habsent⟩ := hs.intact kind hkind
    exact ⟨hsame, fun target ht hb => habsent target ht ((hexist _ _).1 hb)⟩
  · obtain ⟨a, ha⟩ := hs.looked_up kind hsame target ht
    refine ⟨⟨.call (.exist (target.key (m.latest kind))) p.ioTimeout, a⟩, ?_, rfl⟩
    rw [split]
    exact List.mem_append_left _ ha

/-- An epoch that has something to fetch completes it. -/
theorem Run.completed {h k l : List Exchange} {e written : Epoch} (run : Run p trigger t (.ended epoch))
    (split : exchanges .epoch t = h ++ (k ++ l)) {jobs : List Job}
    (checked : (checking p trigger).Ends h (.ready e jobs)) (selected : selections t = [jobs])
    (fetched : Results p t jobs results) (wrote : (writing p e results).Ends k written)
    (concluded : (concluding written).Ends l epoch) (hs : Selected p h m stored sels e jobs) :
    Completed p t epoch sels results := by
  obtain ⟨now, rfl⟩ := ends_concluding concluded
  obtain ⟨c, k, kinds, rfl, hkinds, rfl⟩ := ends_writing wrote
  obtain ⟨hreports, horigins, hparts⟩ := exists_of_ends_processKinds hkinds
  have hpart : ∀ {k' : List Exchange}, k' ⊆ k → k' ⊆ exchanges .epoch t := by
    intro k' hk' e he
    rw [split]
    simp [hk' he]
  have hkinds_eq : kinds.map (·.kind) = sels.map (·.kind) := by
    rw [kinds_of_ends_processKinds hkinds, hs.kinds_eq, List.map_map]
    rfl
  rw [hs.kinds_eq] at hreports horigins hparts
  rw [hs.jobs_eq] at selected fetched
  refine ⟨hs.ne_nil, selected, fetched, hkinds_eq, fun sel hsel => ?_, fun report hr => ?_,
    fun d hd call hc hkind => ?_, ?_, ?_⟩
  · obtain ⟨report, hr, k', hk', hends⟩ := hreports _ (List.mem_map_of_mem hsel)
    exact ⟨report, hr, k', hpart hk', hends⟩
  · obtain ⟨r, hmem, k', hk', hends⟩ := horigins report hr
    obtain ⟨sel, hsel, rfl⟩ := List.mem_map.1 hmem
    exact ⟨sel, hsel, k', hpart hk', hends⟩
  · simp only [split, List.mem_append, List.mem_cons] at hd
    obtain hd | (rfl | rfl | hd) | hd := hd
    · obtain ⟨_, hasks⟩ := Path.asks_of_mem checked hd
      rw [Request.IsOfCheck.isOfKind_eq (asks_checking hasks) hc] at hkind
      cases hkind
    · cases hc
    · cases hc
    · obtain ⟨r, hmem, report, hr, k', hk', hd, hends⟩ := hparts d hd
      obtain ⟨sel, hsel, rfl⟩ := List.mem_map.1 hmem
      exact ⟨sel, hsel, report, hr, k', hd, hpart hk', hends⟩
    · obtain ⟨_, hasks⟩ := Path.asks_of_mem concluded hd
      rw [call?_of_isOfConclusion (asks_concluding hasks)] at hc
      cases hc
  · simp [Epoch.finalize, Epoch.verdict, Epoch.collect, hs.error_eq]
  · rw [split]
    simp [Epoch.finalize, Epoch.collect]

/-- **An epoch that is over has failed, has found nothing to fetch, or has completed its kinds.** -/
theorem Run.closed (run : Run p trigger t (.ended epoch)) : Closed p t epoch := by
  obtain ⟨-, hfinished⟩ := run.finished
  cases hfinished with
  | @stopped h k e split checked unselected concluded =>
    have hlater : ∀ d ∈ k, d.request.call? = none := by
      intro d hd
      obtain ⟨_, hasks⟩ := Path.asks_of_mem concluded hd
      exact call?_of_isOfConclusion (asks_concluding hasks)
    have hnone : ∀ d ∈ k, ∀ c, d.request.call? = some c → c.isOfCheck = false := by
      intro d hd c hc
      rw [hlater d hd] at hc
      cases hc
    have hunwritten : ∀ d ∈ exchanges .epoch t, ∀ c, d.request.call? = some c →
        c.isOfKind = false := by
      intro d hd c hc
      rw [split, List.mem_append] at hd
      obtain hd | hd := hd
      · obtain ⟨_, hasks⟩ := Path.asks_of_mem checked hd
        exact Request.IsOfCheck.isOfKind_eq (asks_checking hasks) hc
      · rw [hlater d hd] at hc
        cases hc
    obtain ⟨now, rfl⟩ := ends_concluding concluded
    cases ends_checking checked with
    | failed kinds_eq halted fault untold =>
      obtain ⟨hmetadata, hversions, -⟩ := run.brought_iff_of_checked split checked hnone
      obtain ⟨d, hd, hfailed⟩ := fault
      refine .failed kinds_eq ?_ ⟨d, by simp [split, hd], hfailed⟩ (fun m stored hm hs => ?_) hunwritten
      · simp [Epoch.finalize, Epoch.verdict, Epoch.collect, halted]
      · exact untold m stored ((hmetadata m).1 hm) ((hversions stored).1 hs)
    | idle kinds_eq unstopped surveyed =>
      refine .idle kinds_eq ?_ (surveyed.settled run split checked hnone) unselected hunwritten
      simp [Epoch.finalize, Epoch.verdict, Epoch.collect, unstopped, kinds_eq, Outcome.decide]
  | @written h k l e written jobs results split checked selected fetched wrote concluded =>
    obtain ⟨m, stored, sels, hselected⟩ := ends_checking_ready checked
    refine .completed (hselected.settled run split checked fun d hd c hc => ?_)
      (run.completed split checked selected fetched wrote concluded hselected)
    obtain hd | hd := List.mem_append.1 hd
    · obtain ⟨_, hasks⟩ := Path.asks_of_mem wrote hd
      exact (asks_writing_request hasks).isOfCheck_eq hc
    · obtain ⟨_, hasks⟩ := Path.asks_of_mem concluded hd
      rw [call?_of_isOfConclusion (asks_concluding hasks)] at hc
      cases hc

/-- Every report tells of a kind that has been processed. -/
theorem Run.processed_of_report (run : Run p trigger t (.ended epoch)) {report : KindReport}
    (hr : report ∈ epoch.kinds) :
    ∃ m stored sels results sel k, Settled p t m stored sels ∧ Completed p t epoch sels results ∧
      sel ∈ sels ∧ Processed p t results sel report k := by
  cases run.closed with
  | failed kinds_eq => simp [kinds_eq] at hr
  | idle kinds_eq => simp [kinds_eq] at hr
  | @completed m stored sels results settled completed =>
    obtain ⟨sel, hsel, k, hp⟩ := completed.origins report hr
    exact ⟨m, stored, sels, results, sel, k, settled, completed, hsel, hp⟩

/-- Every exchange for a kind belongs to one of the reported kinds. -/
theorem Run.processed_of_mem (run : Run p trigger t (.ended epoch)) {e : Exchange}
    (he : e ∈ exchanges .epoch t) {c : Call} (hc : e.request.call? = some c)
    (hkind : c.isOfKind = true) :
    ∃ m stored sels results sel report k, Settled p t m stored sels ∧
      Completed p t epoch sels results ∧ sel ∈ sels ∧ report ∈ epoch.kinds ∧
      Processed p t results sel report k ∧ e ∈ k := by
  cases run.closed with
  | failed _ _ _ _ unwritten =>
    rw [unwritten e he c hc] at hkind
    cases hkind
  | idle _ _ _ _ unwritten =>
    rw [unwritten e he c hc] at hkind
    cases hkind
  | @completed m stored sels results settled completed =>
    obtain ⟨sel, hsel, report, hr, k, hk, hprocessed⟩ := completed.parts e he c hc hkind
    exact ⟨m, stored, sels, results, sel, report, k, settled, completed, hsel, hr, hprocessed, hk⟩

/-- **Every call for a kind was made for one of the reported kinds.** -/
theorem Run.exists_processed (run : Run p trigger t (.ended epoch)) {c : Call} (hc : c ∈ calls t)
    (hkind : c.isOfKind = true) :
    ∃ m stored sels results sel report k e, Settled p t m stored sels ∧
      Completed p t epoch sels results ∧ sel ∈ sels ∧ report ∈ epoch.kinds ∧
      Processed p t results sel report k ∧ e ∈ k ∧ ∃ limit, e.request = .call c limit := by
  obtain ⟨hbalanced, -⟩ := run.finished
  obtain ⟨e, he, limit, hrequest⟩ := run.exchange_of_call hbalanced hc hkind
  obtain ⟨m, stored, sels, results, sel, report, k, hs, hcompleted, hsel, hr, hp, hk⟩ :=
    run.processed_of_mem he (c := c) (by rw [hrequest]; rfl) hkind
  exact ⟨m, stored, sels, results, sel, report, k, e, hs, hcompleted, hsel, hr, hp, hk, limit,
    hrequest⟩

end Engine

end ContentSync
