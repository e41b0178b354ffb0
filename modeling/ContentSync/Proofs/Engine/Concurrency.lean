import ContentSync.Proofs.Engine.Agreement
import ContentSync.Proofs.Engine.Fulfilment

/-!
# Fetching several targets at once changes nothing

How many jobs may run at a time, how long their attempts take and in which order they end makes no
difference: with the same fate and the same stores an epoch comes to the same as one whose jobs run one
after another.

* `SyncPolicy.withLimit` — a policy with another limit; no program of an epoch depends on it;
* `Gathers` / `Run.gathers_iff` — what an epoch has gathered when its last job has ended;
* `SameDoings` — two epochs have done the same, each at its own times;
* `Fated.sameDoings` — so have two epochs that differ in their limits only;
* `concurrency` — every limit leads to an end, and to the same one.
-/

set_option autoImplicit false

namespace ContentSync

/-- The policy with another limit on how many targets are fetched at once. -/
def SyncPolicy.withLimit (p : SyncPolicy) (limit : Nat) : SyncPolicy :=
  { p with maxConcurrentFetches := limit }

namespace Engine

open Program

variable {p : SyncPolicy} {trigger : Trigger} {t t' : List Moment} {s : Situation}
  {epoch epoch' : Epoch} {limit : Nat}

/-! ## Programs do not depend on the limit -/

@[simp] theorem bounded_withLimit (what : String) (late : String → Failure) (c : Call) :
    bounded (p.withLimit limit) what late c = bounded p what late c := by
  unfold bounded
  congr 1
  funext result
  cases result <;> rfl

@[simp] theorem retrying_withLimit (what : String) (c : Call) (left attempt : Nat) :
    retrying (p.withLimit limit) what c left attempt = retrying p what c left attempt := by
  induction left generalizing attempt with
  | zero => rfl
  | succ left ih =>
    simp only [retrying, ih]
    rfl

@[simp] theorem withRetry_withLimit (what : String) (c : Call) :
    withRetry (p.withLimit limit) what c = withRetry p what c := retrying_withLimit ..

theorem check_withLimit : check (p.withLimit limit) = check p := by
  simp only [check, withRetry_withLimit, bounded_withLimit]

theorem fetchOne_withLimit (job : Job) : fetchOne (p.withLimit limit) job = fetchOne p job := by
  simp only [fetchOne, withRetry_withLimit]
  rfl

@[simp] theorem missing_withLimit (v : Version) (ts : List FetchTarget) :
    missing (p.withLimit limit) v ts = missing p v ts := by
  induction ts with
  | nil => rfl
  | cons target ts ih => simp only [missing, bounded_withLimit, ih]

@[simp] theorem targetsToFetch_withLimit (k : DataKind) (committed : Option Version)
    (advertised : Version) :
    targetsToFetch (p.withLimit limit) k committed advertised =
      targetsToFetch p k committed advertised := by
  simp only [targetsToFetch, missing_withLimit]
  rfl

theorem selectKinds_withLimit (m : Metadata) (stored : StoredVersions) (ks : List DataKind) :
    selectKinds (p.withLimit limit) m stored ks = selectKinds p m stored ks := by
  induction ks with
  | nil => rfl
  | cons k ks ih => simp only [selectKinds, targetsToFetch_withLimit, ih]

@[simp] theorem comparison_withLimit (r : KindReport) (target : FetchTarget) (new : Json) :
    comparison (p.withLimit limit) r target new = comparison p r target new := by
  simp only [comparison, compareTarget, bounded_withLimit]

@[simp] theorem writeTarget_withLimit (r : KindReport) (f : Fetched) :
    writeTarget (p.withLimit limit) r f = writeTarget p r f := by
  have hlifetime : (p.withLimit limit).lifetime = p.lifetime := funext fun kind => by
    cases kind <;> rfl
  obtain ⟨target, attempts, payload⟩ := f
  cases payload with
  | error e => rfl
  | ok payload =>
    simp only [writeTarget, comparison_withLimit, bounded_withLimit]
    rw [hlifetime]
    congr 1
    funext cancelled
    cases cancelled with
    | true => rfl
    | false =>
      simp only [Bool.false_eq_true, if_false]
      congr 1
      funext c
      congr 1
      funext written
      cases written <;> rfl

@[simp] theorem writeTargets_withLimit (r : KindReport) (fs : List Fetched) :
    writeTargets (p.withLimit limit) r fs = writeTargets p r fs := by
  induction fs with
  | nil => rfl
  | cons f fs ih => simp only [writeTargets, writeTarget_withLimit, ih]

@[simp] theorem expire_withLimit (v : Version) (ts : List FetchTarget) :
    expire (p.withLimit limit) v ts = expire p v ts := by
  induction ts with
  | nil => rfl
  | cons target ts ih => simp only [expire, bounded_withLimit, ih]

@[simp] theorem processKind_withLimit (fetched : List Fetched) (r : KindReport) :
    processKind (p.withLimit limit) fetched r = processKind p fetched r := by
  simp only [processKind, writeTargets_withLimit, commitKind, expirePrevious, expire_withLimit,
    bounded_withLimit]

theorem processKinds_withLimit (fetched : List Fetched) (rs : List KindReport) :
    processKinds (p.withLimit limit) fetched rs = processKinds p fetched rs := by
  induction rs with
  | nil => rfl
  | cons r rs ih => simp only [processKinds, processKind_withLimit, ih]

theorem results_withLimit {jobs : List Job} {results : List Fetched} :
    Results (p.withLimit limit) t jobs results ↔ Results p t jobs results := by
  have hresult : JobResult (p.withLimit limit) t jobs = JobResult p t jobs := by
    funext i result
    simp only [JobResult, fetchOne_withLimit]
  constructor
  · rintro ⟨hlength, hresults, hbeyond⟩
    exact ⟨hlength, hresult ▸ hresults, hbeyond⟩
  · rintro ⟨hlength, hresults, hbeyond⟩
    exact ⟨hlength, hresult ▸ hresults, hbeyond⟩

/-- An epoch with another limit passes through the same parts. -/
theorem Run.passage_withLimit (run : Run (p.withLimit limit) trigger t (.ended epoch)) :
    Passage p trigger t epoch := by
  obtain @⟨began, ceased, c, rest, last, result, e, split, checked, aftermath, silent⟩ := run.passage
  rw [check_withLimit] at checked
  refine .intro split checked ?_ silent
  cases aftermath with
  | failed f selected => exact .failed f selected
  | idle surveyed selected =>
    rw [selectKinds_withLimit] at surveyed
    exact .idle surveyed selected
  | written surveyed ne_nil selected fetched processed =>
    rw [selectKinds_withLimit] at surveyed
    rw [processKinds_withLimit] at processed
    exact .written surveyed ne_nil selected (results_withLimit.1 fetched) processed

/-! ## What is gathered -/

/-- The results of all jobs, in the order in which the epoch holds them when the last one has
ended. -/
inductive Gathers (p : SyncPolicy) (trigger : Trigger) (t : List Moment) : List Fetched → Prop
  | intro {past rest : List Moment} {epoch : Epoch} {f : Fetching}
    {slots : List (Nat × Thread Fetched)} (moment : t = past ++ rest)
    (run : Run p trigger past (.fetching epoch f slots)) (complete : f.isOver = true) :
    Gathers p trigger t f.taken

theorem Gathers.append {u : List Moment} {slots : List Fetched} (hg : Gathers p trigger t slots) :
    Gathers p trigger (t ++ u) slots := by
  obtain ⟨rfl, run, complete⟩ := hg
  exact .intro (List.append_assoc ..) run complete

/-- An epoch that writes has gathered its results. -/
theorem Run.exists_gathers {th : Thread Epoch} (run : Run p trigger t (.writing th))
    (hs : selections t ≠ []) : ∃ slots, Gathers p trigger t slots := by
  generalize hsituation : Situation.writing th = s at run
  induction run generalizing th with
  | start => cases hsituation
  | startCancelled => cases hsituation
  | cancel run hrest hc ih =>
    obtain ⟨slots, hg⟩ := ih (by simpa using hs) hsituation
    exact ⟨slots, hg.append⟩
  | step run hs' ih =>
    cases hs' with
    | check | select | launch | fetch | land => cases hsituation
    | stop =>
      cases run.accounts with
      | checking _ _ unselected => simp [unselected] at hs
    | collect hover => exact ⟨_, .intro rfl run hover⟩
    | write hth =>
      have hsame := hth.selections_eq
      obtain ⟨slots, hg⟩ := ih (by simpa [hsame] using hs) rfl
      exact ⟨slots, hg.append⟩

theorem Results.unique {jobs : List Job} {results results' : List Fetched}
    (hr : Results p t jobs results) (hr' : Results p t jobs results') : results = results' := by
  apply List.ext_getElem?
  intro n
  by_cases hn : n < results.length
  · have hn' : n < results'.length := by rwa [hr'.length_eq, ← hr.length_eq]
    obtain ⟨job, hjob, hends⟩ := hr.result n _ (List.getElem?_eq_getElem hn)
    obtain ⟨job', hjob', hends'⟩ := hr'.result n _ (List.getElem?_eq_getElem hn')
    rw [hjob] at hjob'
    obtain rfl := Option.some.inj hjob'
    obtain ⟨-, heq⟩ := hends.eq_of_append_eq hends' (congrArg (· ++ []) rfl)
    rw [List.getElem?_eq_getElem hn, List.getElem?_eq_getElem hn', heq]
  · have hn' : ¬ n < results'.length := by rwa [hr'.length_eq, ← hr.length_eq]
    rw [List.getElem?_eq_none (Nat.le_of_not_lt hn), List.getElem?_eq_none (Nat.le_of_not_lt hn')]

/-- **What an epoch gathers are the results of its jobs**, whichever of them ended first. -/
theorem Run.gathers_iff (run : Run p trigger t (.ended epoch)) {jobs : List Job}
    {results slots : List Fetched} (selected : selections t = [jobs])
    (fetched : Results p t jobs results) : Gathers p trigger t slots ↔ slots = results := by
  have honly : ∀ {slots}, Gathers p trigger t slots → slots = results := by
    intro slots hg
    obtain @⟨past, rest, e, f, threads, rfl, run', complete⟩ := hg
    cases run'.accounts with
    | @fetching _ _ _ jobs' _ _ selected' launched =>
      obtain rfl : jobs' = jobs := by
        rw [selections_append, selected'] at selected
        exact (List.cons.inj selected).1
      have hpast := launched.results complete
      -- After their ends the jobs exchange nothing more.
      have hrest : ∀ n, exchanges (.job n) rest = [] := by
        intro n
        by_cases hn : n < f.taken.length
        · have hn' : n < results.length := by rwa [fetched.length_eq, ← hpast.length_eq]
          obtain ⟨job, hjob, hends⟩ := hpast.result n _ (List.getElem?_eq_getElem hn)
          obtain ⟨job', hjob', hends'⟩ := fetched.result n _ (List.getElem?_eq_getElem hn')
          rw [hjob] at hjob'
          obtain rfl := Option.some.inj hjob'
          rw [exchanges_append] at hends'
          exact (hends.eq_nil_of_append hends').1
        · have hbeyond := fetched.beyond n (by rw [← hpast.length_eq]; omega)
          rw [exchanges_append, List.append_eq_nil_iff] at hbeyond
          exact hbeyond.2
      exact (hpast.append hrest).unique fetched
  constructor
  · exact honly
  · rintro rfl
    obtain ⟨slots', hg⟩ := run.exists_gathers (by simp [selected])
    obtain rfl := honly hg
    exact hg

/-- An epoch that has selected nothing gathers nothing. -/
theorem Run.not_gathers (run : Run p trigger t s) (selected : selections t = [])
    (slots : List Fetched) : ¬ Gathers p trigger t slots := by
  rintro ⟨rfl, run', complete⟩
  cases run'.accounts with
  | fetching _ _ selected' => simp [selected'] at selected

/-! ## Two limits -/

/-- Two epochs with different limits have done the same, each at its own times. -/
structure SameDoings (p p' : SyncPolicy) (trigger : Trigger) (t t' : List Moment)
    (epoch epoch' : Epoch) : Prop where
  /-- Both have gathered the same results, in the same order. -/
  gathers_iff : ∀ slots, Gathers p trigger t slots ↔ Gathers p' trigger t' slots
  /-- Each job has made the same attempts. -/
  jobs_eq : ∀ n, exchanges (.job n) t = exchanges (.job n) t'
  /-- The same kinds are reported, with the same targets, and with the same outcome. -/
  epoch_eq : ∃ started finished, epoch' = { epoch with started := started, finished := finished }
  /-- The same payloads are written, the same versions committed and the same entries removed, in the
  same order. -/
  effects_eq : effects t = effects t'
  announced_eq : ∃ time, announced t' = (announced t).map fun event => { event with time := time }

variable {fate : Fate} {start w w' : World}

/-- **Two epochs that differ in their limits only have done the same.** -/
theorem Fated.sameDoings {limit' : Nat}
    (one : Fated (p.withLimit limit) trigger fate start t epoch w)
    (two : Fated (p.withLimit limit') trigger fate start t' epoch' w') (hd : start.cache.Distinct)
    (hu : ∀ key, Unexpired start w key) (hu' : ∀ key, Unexpired start w' key) :
    SameDoings (p.withLimit limit) (p.withLimit limit') trigger t t' epoch epoch' := by
  have hsettled : ∀ {c : Call}, c.isOfStores = true → Alike fate fate start w start w' c :=
    fun hc => alike_self rfl hc fun key _ => ⟨hu key, hu' key⟩
  have hannounced : ∀ {e : Epoch} {started : Timestamp} {finished : Option Timestamp},
      epoch = e → epoch' = { e with started := started, finished := finished } →
      ∃ time, announced t' = (announced t).map fun event => { event with time := time } := by
    rintro e started finished rfl rfl
    refine ⟨started, ?_⟩
    rw [one.run.announced_eq, two.run.announced_eq]
    rfl
  obtain @⟨began, ceased, c, rest, last, result, e, split, checked, aftermath, silent⟩ :=
    one.run.passage_withLimit
  obtain @⟨began', ceased', c', rest', last', result', e', split', checked', aftermath', silent'⟩ :=
    two.run.passage_withLimit
  obtain ⟨rfl, rfl⟩ := one.check_unique two hd hd rfl rfl rfl split split' checked checked'
  have heffects : rest = rest' → effects t = effects t' := by
    rintro rfl
    rw [one.run.effects_eq_of_split split silent, two.run.effects_eq_of_split split' silent']
  have hpart : ∀ e ∈ rest, e ∈ exchanges .epoch t := fun e he => by simp [split, he]
  have hpart' : ∀ e ∈ rest', e ∈ exchanges .epoch t' := fun e he => by simp [split', he]
  have hsurveys : ∀ {m : Metadata} {stored : StoredVersions} {k k' : List Exchange}
      {sels sels' : List Selection}, (∀ e ∈ k, e ∈ rest) → (∀ e ∈ k', e ∈ rest') →
      (selectKinds p m stored DataKind.all).Ends k sels →
      (selectKinds p m stored DataKind.all).Ends k' sels' → k = k' ∧ sels = sels' := by
    intro m stored k k' sels sels' hk hk' hends hends'
    refine one.ends_unique two hd hd (fun e he => hpart e (hk e he))
      (fun e he => hpart' e (hk' e he)) hends hends' fun h r hr => ?_
    obtain ⟨kind, -, target, -, rfl⟩ := asks_selectKinds hr
    refine ⟨rfl, ?_⟩
    rintro c limit ⟨⟩
    exact hsettled rfl
  -- Without a selection nothing is fetched on either side.
  have hidle : selections t = [] → selections t' = [] →
      (∀ slots, Gathers (p.withLimit limit) trigger t slots ↔
        Gathers (p.withLimit limit') trigger t' slots) ∧
      ∀ n, exchanges (.job n) t = exchanges (.job n) t' := by
    intro hs hs'
    refine ⟨fun slots => iff_of_false (one.run.not_gathers hs slots)
      (two.run.not_gathers hs' slots), fun n => ?_⟩
    rw [one.run.exchanges_job_of_unselected hs, two.run.exchanges_job_of_unselected hs']
  cases aftermath with
  | failed f selected =>
    cases aftermath' with
    | failed _ selected' =>
      obtain ⟨hgathers, hjobs⟩ := hidle selected selected'
      have heq : ((Epoch.start trigger began').halted f).finalize ceased' =
          { ((Epoch.start trigger began).halted f).finalize ceased with
            started := began', finished := some ceased' } := by
        cases f <;> rfl
      exact ⟨hgathers, hjobs, ⟨_, _, heq⟩, heffects rfl, hannounced rfl heq⟩
  | @idle m stored k surveyed selected =>
    cases aftermath' with
    | idle surveyed' selected' =>
      obtain ⟨rfl, -⟩ := hsurveys (fun _ => id) (fun _ => id) surveyed surveyed'
      obtain ⟨hgathers, hjobs⟩ := hidle selected selected'
      exact ⟨hgathers, hjobs, ⟨began', some ceased', rfl⟩, heffects rfl, hannounced rfl rfl⟩
    | written surveyed' ne_nil' =>
      obtain ⟨-, rfl⟩ := hsurveys (fun _ => id) (fun e he => List.mem_append_left _ he) surveyed
        surveyed'
      exact absurd rfl ne_nil'
  | @written m stored k l sels results cancelled kinds surveyed ne_nil selected fetched processed =>
    cases aftermath' with
    | idle surveyed' =>
      obtain ⟨-, rfl⟩ := hsurveys (fun e he => List.mem_append_left _ he) (fun _ => id) surveyed
        surveyed'
      exact absurd rfl ne_nil
    | @written _ _ k' l' sels' results' cancelled' kinds' surveyed' _ selected' fetched'
        processed' =>
      obtain ⟨rfl, rfl⟩ := hsurveys (fun e he => List.mem_append_left _ he)
        (fun e he => List.mem_append_left _ he) surveyed surveyed'
      have hnodup := nodup_of_ends_selectKinds surveyed
      obtain ⟨hjobs, rfl⟩ := one.jobs_unique two hd hd fetched fetched' hnodup rfl
      obtain ⟨rfl, rfl⟩ := one.ends_unique two hd hd (fun e he => hpart e (by simp [he]))
        (fun e he => hpart' e (by simp [he])) processed processed' fun h r hr => by
          obtain ⟨report, -, hconcerns⟩ := asks_processKinds_concerns hr
          refine ⟨(Request.Concerns.isSettled hconcerns), ?_⟩
          rintro c limit rfl
          exact hsettled (Request.Concerns.isSettled hconcerns)
      obtain rfl : cancelled = false := one.settles hd (hpart (cancelAnswer cancelled) (by simp)) nofun
      obtain rfl : cancelled' = false :=
        two.settles hd (hpart' (cancelAnswer cancelled') (by simp)) nofun
      refine ⟨fun slots => ?_, hjobs, ⟨began', some ceased', rfl⟩, heffects rfl,
        hannounced rfl rfl⟩
      rw [one.run.gathers_iff selected (results_withLimit.2 fetched),
        two.run.gathers_iff selected' (results_withLimit.2 fetched')]

/-- **Fetching several targets at once is like fetching them one after another.** Whatever is settled
about the calls and whatever the stores hold, every limit leads some epoch to its end; and any two
epochs, whatever their limits and whenever their jobs end, have gathered the same results in the same
order, report the same, do the same to the stores in the same order and announce the same event. -/
theorem concurrency (p : SyncPolicy) (trigger : Trigger) (fate : Fate) (start : World)
    (hd : start.cache.Distinct) :
    (∀ limit, ∃ t epoch w, Fated (p.withLimit limit) trigger fate start t epoch w ∧
      ∀ key, Unexpired start w key) ∧
    ∀ limit limit' t t' epoch epoch' w w',
      Fated (p.withLimit limit) trigger fate start t epoch w →
      Fated (p.withLimit limit') trigger fate start t' epoch' w' →
      (∀ key, Unexpired start w key) → (∀ key, Unexpired start w' key) →
      SameDoings (p.withLimit limit) (p.withLimit limit') trigger t t' epoch epoch' := by
  constructor
  · intro limit
    obtain ⟨t, epoch, w, hf, hnow⟩ := fate.exists_fated (p.withLimit limit) trigger start
    exact ⟨t, epoch, w, hf, unexpired_of_now_eq hnow⟩
  · intro limit limit' t t' epoch epoch' w w' one two hu hu'
    exact one.sameDoings two hd hu hu'

/-- Both kinds have new versions, and whatever is asked of the content service takes too long at
first: five fetches at a time come to the same as one. -/
theorem concurrency_hesitant :
    let fate : Fate :=
      { metadata := fun n => if n = 0 then none else some (.ok ⟨⟨"2"⟩, ⟨"1"⟩⟩)
        fetch := fun _ n => if n = 0 then none else some (.ok (.object []))
        store := fun _ => some (.ok ()) }
    ∃ t t' epoch epoch' w w',
      Fated (SyncPolicy.default.withLimit 5) .manual fate (.cold 0) t epoch w ∧
      Fated (SyncPolicy.default.withLimit 1) .manual fate (.cold 0) t' epoch' w' ∧
      SameDoings (SyncPolicy.default.withLimit 5) (SyncPolicy.default.withLimit 1) .manual t t' epoch
        epoch' := by
  intro fate
  obtain ⟨hends, hsame⟩ :=
    concurrency .default .manual fate (.cold 0) MemoryCache.distinct_empty
  obtain ⟨t, epoch, w, one, hu⟩ := hends 5
  obtain ⟨t', epoch', w', two, hu'⟩ := hends 1
  exact ⟨t, t', epoch, epoch', w, w', one, two, hsame 5 1 t t' epoch epoch' w w' one two hu hu'⟩

end Engine

end ContentSync
