import ContentSync.Proofs.Engine.Agreement
import ContentSync.Proofs.Engine.Fulfilment
import Mathlib.Data.List.Forall2

/-!
# Kinds do not interfere

Both kinds share the check, the pool of fetches and the loop that writes. How the calls for one of them
turn out still makes no difference to the other one.

* `Call.kind?` / `Fate.AgreesOff` — two fates differ in the calls for one kind at most;
* `ends_selectKinds_of_kind`, `ends_processKinds_of_kind` — what is surveyed and processed for a kind
  is what would be surveyed and processed if there was no other kind;
* `Fated.results_of_kind` — so is what is gathered for it;
* `SameFor` / `Fated.sameFor` — two epochs have come to the same for a kind;
* `Untroubled` / `Fated.committed_of_untroubled` — a kind whose own calls succeed is committed;
* `isolation` — both at once.
-/

set_option autoImplicit false

namespace ContentSync

/-- The kind for which a call is made. -/
def Call.kind? : Call → Option DataKind
  | fetch target _ _ => some target.kind
  | commit kind _ => some kind
  | read key | exist key | write key _ _ | invalidate key => key.kind?
  | metadata | player _ | versions => none

theorem Call.kind?_of_lookedAt {c : Call} {key : CacheKey} (hc : c.lookedAt? = some key) :
    c.kind? = key.kind? := by
  cases c <;> cases hc <;> rfl

namespace Engine

open Program

/-- Two fates differ at most in how the calls for a kind turn out. -/
structure Fate.AgreesOff (fate fate' : Fate) (other : DataKind) : Prop where
  metadata : fate.metadata = fate'.metadata
  fetch : ∀ target, target.kind ≠ other → fate.fetch target = fate'.fetch target
  store : ∀ c, c.kind? ≠ some other → fate.store c = fate'.store c

variable {p : SyncPolicy} {trigger trigger' : Trigger} {fate fate' : Fate} {start w w' : World}
  {t t' : List Moment} {epoch epoch' : Epoch} {kind other : DataKind} {h : List Exchange}
  {results results' : List Fetched}

/-! ## What is surveyed for a kind -/

theorem Request.Concerns.kind?_eq {c : Call} {limit : Duration}
    (hr : (Request.call c limit).Concerns kind) : c.kind? = some kind := by
  cases c with
  | read | write | invalidate =>
    obtain ⟨target, v, rfl, rfl⟩ := hr
    exact target.kind?_key v
  | commit l => exact congrArg some hr
  | metadata | fetch | player | versions | exist => exact hr.elim

theorem append_subset_append_left {α : Type} {l k k' : List α} (hk : k ⊆ k') : l ++ k ⊆ l ++ k' :=
  List.append_subset.2 ⟨List.subset_append_left .., List.subset_append_of_subset_right _ hk⟩

/-- What a kind is selected with is what it would be selected with alone. -/
theorem ends_selectKinds_of_kind {m : Metadata} {stored : StoredVersions} {ks : List DataKind}
    {sels : List Selection} (hr : (selectKinds p m stored ks).Ends h sels) (kind : DataKind) :
    ∃ part, part ⊆ h ∧ (selectKinds p m stored (ks.filter (· = kind))).Ends part
      (sels.filter fun sel => sel.kind = kind) := by
  induction ks generalizing h sels with
  | nil =>
    simp only [selectKinds, ends_pure] at hr
    obtain ⟨rfl, rfl⟩ := hr
    exact ⟨[], List.nil_subset _, ends_pure.2 ⟨rfl, rfl⟩⟩
  | cons k ks ih =>
    simp only [selectKinds, ends_bind, ends_pure] at hr
    obtain ⟨h₁, _, targets, rfl, htargets, h₂, _, others, rfl, hothers, rfl, rfl⟩ := hr
    obtain ⟨part, hpart, hends⟩ := ih hothers
    by_cases hk : k = kind
    · refine ⟨h₁ ++ part, ?_, ?_⟩
      · rw [List.append_nil]
        exact append_subset_append_left hpart
      · rw [List.filter_cons_of_pos (by simpa using hk)]
        simp only [selectKinds, ends_bind, ends_pure]
        refine ⟨h₁, part, targets, rfl, htargets, part, [], _, (List.append_nil _).symm, hends,
          rfl, ?_⟩
        split
        · rfl
        · exact List.filter_cons_of_pos (by simpa using hk)
    · refine ⟨part, fun e he => by simp [hpart he], ?_⟩
      rw [List.filter_cons_of_neg (by simpa using hk)]
      split
      · exact hends
      · rwa [List.filter_cons_of_neg (by simpa using hk)]

/-- The jobs for a kind are those of its selection. -/
theorem filter_jobs {sels : List Selection}
    (hsels : ∀ sel ∈ sels, ∀ target ∈ sel.targets, target.kind = sel.kind) (kind : DataKind) :
    (sels.flatMap Selection.jobs).filter (fun job => job.1.kind = kind) =
      (sels.filter fun sel => sel.kind = kind).flatMap Selection.jobs := by
  induction sels with
  | nil => rfl
  | cons sel sels ih =>
    have hrest := ih fun s hs => hsels s (List.mem_cons_of_mem _ hs)
    have hown : ∀ job ∈ sel.jobs, job.1.kind = sel.kind := by
      intro job hjob
      obtain ⟨target, ht, rfl⟩ := List.mem_map.1 hjob
      exact hsels sel List.mem_cons_self target ht
    rw [List.flatMap_cons, List.filter_append, hrest]
    by_cases hk : sel.kind = kind
    · rw [List.filter_cons_of_pos (by simpa using hk), List.flatMap_cons,
        List.filter_eq_self.2 fun job hjob => by simpa [hown job hjob] using hk]
    · rw [List.filter_cons_of_neg (by simpa using hk),
        List.filter_eq_nil_iff.2 fun job hjob => by simpa [hown job hjob] using hk, List.nil_append]

/-! ## What is gathered for a kind -/

/-- A job and its result. -/
def Beside (jobs : List Job) (results : List Fetched) (job : Job) (f : Fetched) : Prop :=
  ∃ n : Nat, jobs[n]? = some job ∧ results[n]? = some f

theorem Results.beside {jobs : List Job} (hr : Results p t jobs results) :
    List.Forall₂ (Beside jobs results) jobs results := by
  refine List.forall₂_iff_get.2 ⟨hr.length_eq.symm, fun i hi hi' => ⟨i, ?_, ?_⟩⟩
  · simp
  · simp

theorem Results.target_eq {jobs : List Job} (hr : Results p t jobs results) {job : Job} {f : Fetched}
    (hb : Beside jobs results job f) : f.target = job.1 := by
  obtain ⟨n, hjob, hf⟩ := hb
  obtain ⟨job', hjob', hends⟩ := hr.result n f hf
  rw [hjob] at hjob'
  obtain rfl := Option.some.inj hjob'
  exact (ends_fetchOne_ok_iff hends .null).1

/-- The jobs for a kind and their results. -/
theorem Results.beside_of_kind {jobs : List Job} (hr : Results p t jobs results) (kind : DataKind) :
    List.Forall₂ (Beside jobs results) (jobs.filter fun job => job.1.kind = kind)
      (results.filter fun f => f.target.kind = kind) := by
  refine List.rel_filter (fun job f hb => ?_) hr.beside
  simp [hr.target_eq hb]

theorem eq_of_forall₂ {α β : Type} {r r' : α → β → Prop} {l : List α} {k k' : List β}
    (h : List.Forall₂ r l k) (h' : List.Forall₂ r' l k')
    (hu : ∀ a ∈ l, ∀ b b', r a b → r' a b' → b = b') : k = k' := by
  induction h generalizing k' with
  | nil =>
    cases h'
    rfl
  | cons hab _ ih =>
    cases h' with
    | cons hab' hrest =>
      rw [hu _ List.mem_cons_self _ _ hab hab',
        ih hrest fun a ha => hu a (List.mem_cons_of_mem _ ha)]

/-- **Two epochs with the same jobs for a kind gather the same for it** when its attempts end alike,
wherever the jobs stand among the others. -/
theorem Fated.results_of_kind (one : Fated p trigger fate start t epoch w)
    (two : Fated p trigger' fate' start t' epoch' w') (hd : start.cache.Distinct)
    {jobs jobs' : List Job} (hr : Results p t jobs results) (hr' : Results p t' jobs' results')
    (hnodup : (jobs.map (·.1)).Nodup) (hnodup' : (jobs'.map (·.1)).Nodup)
    (hjobs : jobs.filter (fun job => job.1.kind = kind) =
      jobs'.filter fun job => job.1.kind = kind)
    (hfetch : ∀ target, target.kind = kind → fate.fetch target = fate'.fetch target) :
    results.filter (fun f => f.target.kind = kind) =
      results'.filter fun f => f.target.kind = kind := by
  have hbeside := hr'.beside_of_kind kind
  rw [← hjobs] at hbeside
  refine eq_of_forall₂ (hr.beside_of_kind kind) hbeside fun job hjob f f' hb hb' => ?_
  have hkind : job.1.kind = kind := by simpa using (List.mem_filter.1 hjob).2
  obtain ⟨n, hn, hf⟩ := hb
  obtain ⟨n', hn', hf'⟩ := hb'
  obtain ⟨-, heq⟩ := one.job_unique two hd hd hr hr' hnodup hnodup' hn hn' (hfetch _ hkind)
  rw [hf, hf'] at heq
  exact Option.some.inj heq

/-- Results stand in the order of their jobs. -/
theorem Results.map_target {jobs : List Job} (hr : Results p t jobs results) :
    results.map (·.target) = jobs.map (·.1) := by
  have htargets : List.Forall₂ (fun job f => job.1 = f.target) jobs results :=
    hr.beside.imp fun _ _ hb => (hr.target_eq hb).symm
  rw [← List.forall₂_eq_eq_eq, List.forall₂_map_left_iff, List.forall₂_map_right_iff]
  exact htargets.flip.imp fun _ _ heq => heq.symm

/-! ## What is processed for a kind -/

theorem kind?_of_ends_processKind {r report : KindReport}
    (hr : (processKind p results r).Ends h report) : ∀ c ∈ callsOf h, c.kind? = some r.kind := by
  intro c hc
  obtain ⟨e, he, hcall⟩ := List.mem_filterMap.1 hc
  obtain ⟨_, hasks⟩ := Path.asks_of_mem hr he
  have hconcerns := asks_processKind_concerns hasks
  cases hrequest : e.request with
  | call c' limit =>
    rw [hrequest] at hcall hconcerns
    obtain rfl := Option.some.inj hcall
    exact Request.Concerns.kind?_eq hconcerns
  | isCancelled | compute | publish | clock | announce | remember | pause =>
    rw [hrequest] at hcall
    cases hcall
  | wait | attempt =>
    rw [hrequest] at hconcerns
    exact hconcerns.elim

/-- What is processed for a kind is what would be processed if there was no other kind, and so are the
calls that are made for it. -/
theorem ends_processKinds_of_kind {rs reports : List KindReport}
    (hr : (processKinds p results rs).Ends h reports) (kind : DataKind) :
    ∃ part, part ⊆ h ∧
      (processKinds p results (rs.filter fun r => r.kind = kind)).Ends part
        (reports.filter fun r => r.kind = kind) ∧
      (callsOf h).filter (·.kind? = some kind) = callsOf part := by
  induction rs generalizing h reports with
  | nil =>
    simp only [processKinds, ends_pure] at hr
    obtain ⟨rfl, rfl⟩ := hr
    exact ⟨[], List.nil_subset _, ends_pure.2 ⟨rfl, rfl⟩, rfl⟩
  | cons r rs ih =>
    obtain ⟨h₁, h₂, report, others, rfl, rfl, hhead, htail⟩ := ends_processKinds_cons hr
    obtain ⟨part, hpart, hends, hcalls⟩ := ih htail
    have hreport := kind_of_ends_processKind hhead
    have hown := kind?_of_ends_processKind hhead
    rw [callsOf_append, List.filter_append, hcalls]
    by_cases hk : r.kind = kind
    · refine ⟨h₁ ++ part, append_subset_append_left hpart, ?_, ?_⟩
      · rw [List.filter_cons_of_pos (by simpa using hk),
          List.filter_cons_of_pos (by simpa [hreport] using hk)]
        simp only [processKinds, ends_bind, ends_pure]
        exact ⟨h₁, part, report, rfl, hhead, part, [], _, (List.append_nil _).symm, hends, rfl, rfl⟩
      · rw [callsOf_append, List.filter_eq_self.2 fun c hc => by simpa [hown c hc] using hk]
    · refine ⟨part, List.subset_append_of_subset_right _ hpart, ?_, ?_⟩
      · rw [List.filter_cons_of_neg (by simpa using hk),
          List.filter_cons_of_neg (by simpa [hreport] using hk)]
        exact hends
      · rw [List.filter_eq_nil_iff.2 fun c hc => by simpa [hown c hc] using hk, List.nil_append]

/-- Results for other kinds make no difference. -/
theorem processKinds_congr {rs : List KindReport}
    (hresults : ∀ r ∈ rs, results.filter (fun f => f.target.kind = r.kind) =
      results'.filter fun f => f.target.kind = r.kind) :
    processKinds p results rs = processKinds p results' rs := by
  induction rs with
  | nil => rfl
  | cons r rs ih =>
    simp only [processKinds, processKind, hresults r List.mem_cons_self,
      ih fun r' hr' => hresults r' (List.mem_cons_of_mem _ hr')]

/-! ## Two epochs -/

/-- Two epochs have come to the same for a kind. -/
structure SameFor (kind : DataKind) (t t' : List Moment) (epoch epoch' : Epoch) (w w' : World) :
    Prop where
  /-- The kind is reported in both or in neither, with the same targets and in the same way. -/
  report_eq : epoch.kind? kind = epoch'.kind? kind
  /-- The same entries of it are written and removed, and the same versions committed. -/
  effects_eq : (effects t).filter (·.kind? = some kind) = (effects t').filter (·.kind? = some kind)
  version_eq : w.versions.get kind = w'.versions.get kind

/-- A kind has been committed when it is reported so. -/
theorem Run.brought_commit_iff (run : Run p trigger t (.ended epoch)) {v : Version} :
    Brought t (.commit kind v) () ↔
      ∃ r ∈ epoch.kinds.filter (fun r => r.kind = kind), r.committed = true ∧ r.newVersion = v := by
  constructor
  · intro hb
    obtain ⟨r, hr, hkind, hcommitted, hv⟩ := run.committed_of_brought hb
    exact ⟨r, List.mem_filter.2 ⟨hr, by simpa using hkind⟩, hcommitted, hv⟩
  · rintro ⟨r, hr, hcommitted, rfl⟩
    obtain ⟨hmem, hkind⟩ := List.mem_filter.1 hr
    obtain rfl : r.kind = kind := by simpa using hkind
    obtain ⟨m, stored, sels, results, sel, k, -, -, -, hp⟩ := run.processed_of_report hmem
    obtain ⟨hkind, -, hnew⟩ := hp.report_eq
    rw [hkind, hnew]
    exact hp.brought_of_committed hcommitted

/-- **What is stored of a kind is told by its report.** -/
theorem Run.version_eq_of_reports (run : Run p trigger t (.ended epoch))
    (run' : Run p trigger' t' (.ended epoch')) (follows : Follows start t w)
    (follows' : Follows start t' w')
    (hreports : epoch.kinds.filter (fun r => r.kind = kind) =
      epoch'.kinds.filter fun r => r.kind = kind) :
    w.versions.get kind = w'.versions.get kind := by
  have htracked : Tracked start t w := follows.tracked (u := []) (by simpa using run)
  have htracked' : Tracked start t' w' := follows'.tracked (u := []) (by simpa using run')
  have hsame : ∀ v, Brought t (.commit kind v) () ↔ Brought t' (.commit kind v) () := by
    intro v
    rw [run.brought_commit_iff, run'.brought_commit_iff, hreports]
  by_cases hcommitted : ∃ v, Brought t (.commit kind v) ()
  · obtain ⟨v, hb⟩ := hcommitted
    rw [htracked.committed kind v hb, htracked'.committed kind v ((hsame v).1 hb)]
  · rw [htracked.unchanged kind fun v hb => hcommitted ⟨v, hb⟩,
      htracked'.unchanged kind fun v hb => hcommitted ⟨v, (hsame v).2 hb⟩]

/-- **Two epochs that differ in the calls for one kind come to the same for the other one.** -/
theorem Fated.sameFor (one : Fated p trigger fate start t epoch w)
    (two : Fated p trigger' fate' start t' epoch' w') (hne : kind ≠ other)
    (hagree : fate.AgreesOff fate' other) (hd : start.cache.Distinct)
    (hu : ∀ key, key.kind? = some kind → Unexpired start w key)
    (hu' : ∀ key, key.kind? = some kind → Unexpired start w' key) :
    SameFor kind t t' epoch epoch' w w' := by
  have halike : ∀ {c : Call}, c.isOfStores = true → c.kind? = some kind →
      Alike fate fate' start w start w' c := by
    intro c hstores hkind
    refine alike_self (hagree.store c ?_) hstores fun key hkey => ?_
    · rw [hkind]
      exact fun heq => hne (Option.some.inj heq)
    · rw [Call.kind?_of_lookedAt hkey] at hkind
      exact ⟨hu key hkind, hu' key hkind⟩
  have run := one.run
  have run' := two.run
  obtain @⟨began, ceased, c, rest, last, result, e, split, checked, aftermath, silent⟩ := run.passage
  obtain @⟨began', ceased', c', rest', last', result', e', split', checked', aftermath', silent'⟩ :=
    run'.passage
  obtain ⟨rfl, rfl⟩ := one.check_unique two hd hd hagree.metadata
    (hagree.store .versions (Option.some_ne_none other).symm) rfl split split' checked checked'
  have hpart : ∀ {k : List Exchange}, k ⊆ rest → k ⊆ exchanges .epoch t := by
    intro k hk d hd'
    simp [split, hk hd']
  have hpart' : ∀ {k : List Exchange}, k ⊆ rest' → k ⊆ exchanges .epoch t' := by
    intro k hk d hd'
    simp [split', hk hd']
  suffices hsame : e.kinds.filter (fun r => r.kind = kind) =
      e'.kinds.filter (fun r => r.kind = kind) ∧
      ((callsOf rest).filter Call.isEffect).filter (·.kind? = some kind) =
        ((callsOf rest').filter Call.isEffect).filter (·.kind? = some kind) by
    obtain ⟨hkinds, hcalls⟩ := hsame
    refine ⟨?_, ?_, run.version_eq_of_reports run' one.follows two.follows hkinds⟩
    · rw [Epoch.kind?, Epoch.kind?, ← List.head?_filter, ← List.head?_filter]
      exact congrArg List.head? hkinds
    · rw [run.effects_eq_of_split split silent, run'.effects_eq_of_split split' silent',
        List.filter_append, List.filter_append, hcalls]
  cases result with
  | error f =>
    cases aftermath with
    | failed =>
      cases aftermath' with
      | failed => exact ⟨by cases f <;> rfl, rfl⟩
  | ok known =>
    obtain ⟨m, stored⟩ := known
    obtain ⟨survey, work, sels, results, s⟩ := aftermath.sequel run rfl
    obtain ⟨survey', work', sels', results', s'⟩ := aftermath'.sequel run' rfl
    obtain ⟨part, hsub, hends⟩ := ends_selectKinds_of_kind s.surveyed kind
    obtain ⟨part', hsub', hends'⟩ := ends_selectKinds_of_kind s'.surveyed kind
    obtain ⟨-, hsels⟩ := one.ends_unique two hd hd (hpart (List.Subset.trans hsub s.survey_subset))
      (hpart' (List.Subset.trans hsub' s'.survey_subset)) hends hends' fun h r hr => by
        obtain ⟨k, hk, target, ht, rfl⟩ := asks_selectKinds hr
        refine ⟨rfl, ?_⟩
        rintro call limit ⟨⟩
        refine halike rfl ((target.kind?_key _).trans ?_)
        rw [SyncPolicy.kind_of_mem_targets ht]
        simpa using (List.mem_filter.1 hk).2
    have hresults := one.results_of_kind two hd s.fetched s'.fetched
      (nodup_of_ends_selectKinds s.surveyed) (nodup_of_ends_selectKinds s'.surveyed)
      (by rw [filter_jobs (kind_of_ends_selectKinds s.surveyed),
        filter_jobs (kind_of_ends_selectKinds s'.surveyed), hsels])
      fun target htarget => hagree.fetch target (by rwa [htarget])
    obtain ⟨done, hsubset, hprocessed, hcalls⟩ := ends_processKinds_of_kind s.processed kind
    obtain ⟨done', hsubset', hprocessed', hcalls'⟩ := ends_processKinds_of_kind s'.processed kind
    have hreports : ∀ found : List Selection,
        (found.map Selection.report).filter (fun r => r.kind = kind) =
          (found.filter fun sel => sel.kind = kind).map Selection.report := by
      intro found
      rw [List.filter_map]
      rfl
    rw [hreports] at hprocessed hprocessed'
    have hcongr : processKinds p results' ((sels.filter fun sel => sel.kind = kind).map
        Selection.report) = processKinds p results ((sels.filter fun sel => sel.kind = kind).map
        Selection.report) := by
      refine processKinds_congr fun r hr => ?_
      obtain ⟨sel, hsel, rfl⟩ := List.mem_map.1 hr
      obtain rfl : sel.kind = kind := by simpa using (List.mem_filter.1 hsel).2
      exact hresults.symm
    rw [← hsels, hcongr] at hprocessed'
    obtain ⟨rfl, hreported⟩ := one.ends_unique two hd hd
      (hpart (List.Subset.trans hsubset s.work_subset))
      (hpart' (List.Subset.trans hsubset' s'.work_subset)) hprocessed hprocessed' fun h r hr => by
        obtain ⟨report, hreport, hconcerns⟩ := asks_processKinds_concerns hr
        obtain ⟨sel, hsel, rfl⟩ := List.mem_map.1 hreport
        have hkind : sel.kind = kind := by simpa using (List.mem_filter.1 hsel).2
        refine ⟨Request.Concerns.isSettled hconcerns, ?_⟩
        rintro call limit rfl
        exact halike (Request.Concerns.isSettled hconcerns)
          ((Request.Concerns.kind?_eq hconcerns).trans (congrArg some hkind))
    refine ⟨hreported, ?_⟩
    rw [s.effects_eq, s'.effects_eq, List.filter_comm, hcalls, List.filter_comm, hcalls']

/-! ## A kind on its own -/

/-- Nothing that a kind needs has failed: each of its targets was fetched, and every write and commit
of it has succeeded. -/
structure Untroubled (p : SyncPolicy) (t : List Moment) (r : KindReport) : Prop where
  fetched : ∀ x ∈ r.targets,
    ∃ payload, Brought t (.fetch x.target r.newVersion p.unzip) payload
  stored : ∀ c ∈ calls t, c.isStoring = true → c.kind? = some r.kind → ∃ x, Brought t c x

theorem Call.isOfKind_of_isStoring {c : Call} (hc : c.isStoring = true) : c.isOfKind = true := by
  cases c <;> first | rfl | cases hc

/-- What was fetched for a target is the result of its job. -/
theorem Results.payload_of_brought {jobs : List Job} {s : Situation}
    (hr : Results p t jobs results) (run : Run p trigger t s) (hnodup : (jobs.map (·.1)).Nodup)
    {f : Fetched} (hf : f ∈ results) {v : Version} {payload : Json}
    (hb : Brought t (.fetch f.target v p.unzip) payload) : f.payload = .ok payload := by
  obtain ⟨g, hg, htarget, hpayload⟩ := hr.exists_of_brought run hb
  rw [← hr.map_target] at hnodup
  rwa [← List.inj_on_of_nodup_map hnodup hg hf htarget]

/-- A call turns out in the same way whenever it is made. -/
theorem Fated.not_failed_of_brought (hf : Fated p trigger fate start t epoch w) {c : Call}
    {limit : Duration} {a : Option (Except Failure c.Answer)} {x : c.Answer}
    (he : (⟨.call c limit, a⟩ : Exchange) ∈ exchanges .epoch t) (hc : c.isOfKind = true)
    (hb : Brought t c x) : ¬ Exchange.Failed ⟨.call c limit, a⟩ := by
  rintro ⟨c', hcall, hno⟩
  obtain rfl := Option.some.inj hcall
  obtain ⟨d, hd, hbrings, limit', hrequest⟩ := hf.run.exchange_of_brought hb hc
  have hturnout : turnout a = fate.store c := hf.governed.store _ c limit a (mem_exchanges.1 he)
  cases hbrings with
  | wait | attempt => cases hrequest
  | call limit =>
    rw [← hf.governed.store _ c limit _ (mem_exchanges.1 hd)] at hturnout
    obtain _ | f | y := a <;>
      simp only [turnout, Option.map_none, Option.map_some, Except.map, reduceCtorEq,
        Option.some.injEq] at hturnout
    exact hno y (.call _)

/-- **A kind of which nothing has failed is committed.** -/
theorem Fated.committed_of_untroubled (hf : Fated p trigger fate start t epoch w) {r : KindReport}
    (hr : epoch.kind? kind = some r) (hs : Untroubled p t r) :
    r.committed = true ∧ w.versions.get kind = some r.newVersion := by
  have run := hf.run
  obtain rfl : r.kind = kind := by simpa using List.find?_some hr
  obtain ⟨m, stored, sels, results, sel, k, settled, completed, hsel, hp⟩ :=
    run.processed_of_report (List.mem_of_find?_eq_some hr)
  obtain ⟨hkind, -, hnew⟩ := hp.report_eq
  have hnodup := run.nodup_selected completed.selections_eq
  have hfetched : ∀ f ∈ results, f.target.kind = sel.kind → ∃ payload, f.payload = .ok payload := by
    intro f hmem hsame
    obtain ⟨v, hjob⟩ := completed.fetched.job_of_mem hmem
    obtain ⟨-, htarget⟩ := (settled.mem_jobs_iff hsel hsame).1 hjob
    obtain ⟨x, hx, heq⟩ := (completed.mem_targets_iff settled hsel hp).2 htarget
    obtain ⟨payload, hb⟩ := hs.fetched x hx
    rw [heq] at hb
    exact ⟨payload, completed.fetched.payload_of_brought run hnodup hmem hb⟩
  have hstored : ∀ e ∈ k, ∀ c, e.request.call? = some c → c.isStoring = true → ¬ e.Failed := by
    rintro ⟨q, a⟩ he c hc hstoring
    have hown := kind?_of_ends_processKind hp.ends c (List.mem_filterMap.2 ⟨_, he, hc⟩)
    obtain ⟨x, hb⟩ := hs.stored c (run.mem_calls_of_exchange (hp.part he) hc) hstoring
      (hown.trans (congrArg some hkind.symm))
    obtain ⟨_, hasks⟩ := Path.asks_of_mem hp.ends he
    have hconcerns := asks_processKind_concerns hasks
    cases q with
    | call c' limit =>
      obtain rfl := Option.some.inj hc
      exact hf.not_failed_of_brought (hp.part he) (Call.isOfKind_of_isStoring hstoring) hb
    | wait | attempt => exact hconcerns.elim
    | publish | isCancelled | clock | announce | remember | pause | compute => cases hc
  have hlook : cancelAnswer true ∉ k := by
    intro he
    have hcancelled := run.cancelled_of_look (hp.part he)
    rw [hf.uncancelled] at hcancelled
    cases hcancelled
  have hsome : ∃ f ∈ results, f.target.kind = sel.kind := by
    obtain ⟨-, -, hne, hmem⟩ := settled.selected sel hsel
    obtain ⟨target, ht⟩ := List.exists_mem_of_ne_nil _ hne
    have htarget := SyncPolicy.kind_of_mem_targets ((hmem target).1 ht).1
    obtain ⟨f, hf, rfl⟩ :=
      completed.fetched.exists_of_job ((settled.mem_jobs_iff hsel htarget).2 ⟨rfl, ht⟩)
    exact ⟨f, hf, htarget⟩
  obtain ⟨hcommitted, -⟩ := committed_of_flawless hp.ends rfl hsome hfetched hlook hstored
  refine ⟨hcommitted, ?_⟩
  have htracked : Tracked start t w := hf.follows.tracked (u := []) (by simpa using run)
  rw [hnew, hkind]
  exact htracked.committed _ _ (hp.brought_of_committed hcommitted)

/-- Whether an exchange tells of a write or a commit for a kind that has failed. -/
def Exchange.spoils (kind : DataKind) (e : Exchange) : Bool :=
  e.request.call?.any fun c => c.isStoring && c.kind? = some kind && e.done?.isNone

/-- **Kinds fail on their own.** Two epochs that are never cancelled, that find the same stores, and
whose calls turn out alike except for those of one kind come to the same for the other one, as long as
no entry of it expires: what is reported of it, what is written and removed of it, and the version that
is stored of it in the end. And it is committed when nothing that it needs has failed, whatever becomes
of the other kind. -/
theorem isolation (p : SyncPolicy) (trigger trigger' : Trigger) (fate fate' : Fate) (start : World)
    {kind other : DataKind} (hne : kind ≠ other) (hagree : fate.AgreesOff fate' other)
    (hd : start.cache.Distinct) {t t' : List Moment} {epoch epoch' : Epoch} {w w' : World}
    (one : Fated p trigger fate start t epoch w) (two : Fated p trigger' fate' start t' epoch' w')
    (hu : ∀ key, key.kind? = some kind → Unexpired start w key)
    (hu' : ∀ key, key.kind? = some kind → Unexpired start w' key) :
    SameFor kind t t' epoch epoch' w w' ∧ ∀ r, epoch.kind? kind = some r → Untroubled p t r →
      r.committed = true ∧ w.versions.get kind = some r.newVersion :=
  ⟨one.sameFor two hne hagree hd hu hu', fun _ hr hs => one.committed_of_untroubled hr hs⟩

/-- Game data is committed although every call to the stores for the localization takes too long. -/
theorem isolation_gameData :
    let m : Metadata := ⟨⟨"2"⟩, ⟨"1"⟩⟩
    ∃ t t' epoch epoch' w w',
      Fated .fullOnly .manual (.steady m .null fun c => c.kind? = some .localization) (.cold 0) t
        epoch w ∧
      Fated .fullOnly .manual (.steady m .null fun _ => false) (.cold 0) t' epoch' w' ∧
      SameFor .gameData t t' epoch epoch' w w' ∧
      (∃ r, epoch.kind? .gameData = some r ∧ r.committed = true) ∧
      w.versions = ⟨some ⟨"2"⟩, none⟩ ∧ w'.versions = ⟨some ⟨"2"⟩, some ⟨"1"⟩⟩ := by
  intro m
  let first := (Conduct.steady m .cold .null fun c => c.kind? = some .localization).play
    .fullOnly .manual false
  let second := (Conduct.steady m .cold .null fun _ => false).play .fullOnly .manual false
  have hworlds : ((World.cold 0).follow? first.history).map (·.versions) = some ⟨some ⟨"2"⟩, none⟩ ∧
      ((World.cold 0).follow? second.history).map (·.versions) = some ⟨some ⟨"2"⟩, some ⟨"1"⟩⟩ := by
    decide +kernel
  have hreport : (first.result.kind? .gameData).any (fun r => decide (r.kind = .gameData) &&
      decide (r.newVersion = ⟨"2"⟩) && r.targets.all fun x => x.target = .gameData .full) = true := by
    decide +kernel
  have hsound : (exchanges .epoch first.history).any (Exchange.spoils .gameData) = false := by
    decide +kernel
  have hfetched : Brought first.history (.fetch (.gameData .full) ⟨"2"⟩ SyncPolicy.fullOnly.unzip)
      .null := ⟨.job 0, _, List.mem_of_getElem? (i := 10) rfl, .attempt _⟩
  obtain ⟨w, hfollow, hversions⟩ := Option.map_eq_some_iff.1 hworlds.1
  obtain ⟨w', hfollow', hversions'⟩ := Option.map_eq_some_iff.1 hworlds.2
  obtain ⟨r, hr, hchecks⟩ := (Option.any_eq_true _ _).1 hreport
  simp only [Bool.and_eq_true, decide_eq_true_eq, List.all_eq_true] at hchecks
  obtain ⟨⟨hkind, hnew⟩, htargets⟩ := hchecks
  have one : Fated .fullOnly .manual (.steady m .null fun c => c.kind? = some .localization)
    (.cold 0) first.history first.result w := .of_play hfollow
  have two : Fated .fullOnly .manual (.steady m .null fun _ => false) (.cold 0) second.history
    second.result w' := .of_play hfollow'
  clear_value first second
  have untroubled : Untroubled .fullOnly first.history r := by
    refine ⟨fun x hx => ⟨.null, ?_⟩, fun c hc hstoring hown => ?_⟩
    · rw [htargets x hx, hnew]
      exact hfetched
    · obtain ⟨e, he, limit, hrequest⟩ :=
        one.run.exchange_of_call one.run.finished.1 hc (Call.isOfKind_of_isStoring hstoring)
      have hno := List.any_eq_false.1 hsound e he
      cases hdone : e.done? with
      | none => simp [Exchange.spoils, hrequest, Request.call?, hstoring, hown, hkind, hdone] at hno
      | some c' =>
        obtain ⟨x, hb⟩ := Exchange.exists_of_done? hdone
        have hcall := hb.call?
        rw [hrequest] at hcall
        obtain rfl := Option.some.inj hcall
        exact ⟨x, .epoch, e, mem_exchanges.1 he, hb⟩
  have hagree : (Fate.steady m .null fun c => c.kind? = some .localization).AgreesOff
      (Fate.steady m .null fun _ => false) .localization :=
    ⟨rfl, fun _ _ => rfl, fun c hc => by simp [Fate.steady, hc]⟩
  obtain ⟨hsame, hcommitted⟩ := isolation .fullOnly .manual .manual _ _ (.cold 0)
    (by decide : DataKind.gameData ≠ .localization) hagree MemoryCache.distinct_empty one two
    (fun key _ => unexpired_of_now_eq (World.now_of_follow? hfollow) key)
    fun key _ => unexpired_of_now_eq (World.now_of_follow? hfollow') key
  obtain ⟨hr', -⟩ := hcommitted r hr untroubled
  exact ⟨_, _, _, _, w, w', one, two, hsame, ⟨r, hr, hr'⟩, hversions, hversions'⟩

end Engine

end ContentSync
