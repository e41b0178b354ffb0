import ContentSync.Proofs.Engine.Agreement
import ContentSync.Proofs.Engine.Fulfilment

/-!
# Comparisons do not decide anything

A payload is compared with the cached one of the version before. Whatever is cached there, and whatever
becomes of the attempt to read it, the payload is written, and everything else goes on as it would
without a comparison.

* `TargetReport.blind`, `KindReport.blind`, `Epoch.blind` — reports without what comparisons tell;
* `uncompared` — a history without what is exchanged for comparisons;
* `processUncompared` / `ends_processKinds_uncompared` — what is left when the comparisons are taken out
  of a path is a path through a program that makes none;
* `Baseline` — the entries of versions before, with which payloads are compared;
* `Unswayed` / `Fated.unswayed` — two epochs that differ at most in their comparisons;
* `baselines` — what is cached as a baseline, or answered, sways nothing.
-/

set_option autoImplicit false

namespace ContentSync

/-! ## Reports without comparisons -/

/-- A report that does not tell of its comparison. -/
def TargetReport.blind (x : TargetReport) : TargetReport := { x with comparison := none }

@[simp] theorem TargetReport.succeeded_blind (x : TargetReport) : x.blind.succeeded = x.succeeded := rfl

@[simp] theorem TargetReport.target_blind (x : TargetReport) : x.blind.target = x.target := rfl

namespace KindReport

/-- A report that does not tell of comparisons. -/
def blind (r : KindReport) : KindReport := { r with targets := r.targets.map TargetReport.blind }

@[simp] theorem fullyWritten_blind (r : KindReport) : r.blind.fullyWritten = r.fullyWritten := by
  simp [fullyWritten, blind, Function.comp_def]

@[simp] theorem allFailed_blind (r : KindReport) : r.blind.allFailed = r.allFailed := by
  simp [allFailed, blind, Function.comp_def]

/-- The report of a kind of which nothing is compared, because it counts as restored. -/
def uncompared (r : KindReport) : KindReport := { r with oldVersion := some r.newVersion }

@[simp] theorem restored_uncompared (r : KindReport) : r.uncompared.restored = true := by
  simp [restored, uncompared]

end KindReport

/-- Comparisons do not decide the outcome. -/
@[simp] theorem Outcome.decide_blind (kinds : List KindReport) :
    Outcome.decide (kinds.map KindReport.blind) = Outcome.decide kinds := by
  simp only [Outcome.decide, List.isEmpty_map, List.any_map, List.all_map, Function.comp_def,
    KindReport.allFailed_blind]
  rfl

/-- A record without anything that comparisons have told. -/
def Epoch.blind (e : Epoch) : Epoch :=
  { e with kinds := e.kinds.map KindReport.blind, changes := .none, unknownChanges := [] }

/-- A request that is made for a comparison. -/
def Request.isOfComparison : Request → Bool
  | compute | call (.read _) _ => true
  | _ => false

namespace Engine

open Program

variable {p : SyncPolicy} {trigger : Trigger} {fate fate' : Fate} {start start' w w' : World}
  {t t' : List Moment} {epoch epoch' : Epoch} {h k : List Exchange} {r : KindReport} {f : Fetched}
  {results : List Fetched} {s : Situation}

/-! ## Paths without comparisons -/

/-- A history without what was exchanged for comparisons. -/
def uncompared (h : List Exchange) : List Exchange := h.filter fun e => !e.request.isOfComparison

@[simp] theorem uncompared_nil : uncompared [] = [] := rfl

@[simp] theorem uncompared_append (h k : List Exchange) :
    uncompared (h ++ k) = uncompared h ++ uncompared k := List.filter_append ..

theorem uncompared_subset (h : List Exchange) : uncompared h ⊆ h := List.filter_sublist.subset

/-- Comparisons change nothing in the stores. -/
theorem effects_uncompared (h : List Exchange) :
    (callsOf (uncompared h)).filter Call.isEffect = (callsOf h).filter Call.isEffect := by
  induction h with
  | nil => rfl
  | cons e h ih =>
    have hsplit : ∀ l : List Exchange, callsOf (e :: l) = callsOf [e] ++ callsOf l := fun l => by
      rw [← List.singleton_append, callsOf_append]
    rw [uncompared, List.filter_cons]
    split
    · rw [hsplit, hsplit h, List.filter_append, List.filter_append]
      exact congrArg _ ih
    · rename_i hcompares
      have hnone : (callsOf [e]).filter Call.isEffect = [] := by
        obtain ⟨q, a⟩ := e
        cases q with
        | call c limit =>
          cases c with
          | read => rfl
          | metadata | fetch | player | versions | commit | exist | write | invalidate =>
            exact absurd rfl hcompares
        | compute => rfl
        | publish | isCancelled | clock | announce | remember | wait | attempt | pause =>
          exact absurd rfl hcompares
      rw [hsplit h, List.filter_append, hnone, List.nil_append]
      exact ih

theorem uncompared_of_ends_comparison {target : FetchTarget} {new : Json} {c : Option Comparison}
    (hr : (comparison p r target new).Ends h c) : uncompared h = [] := by
  refine List.filter_eq_nil_iff.2 fun e he => ?_
  obtain ⟨_, hasks⟩ := Path.asks_of_mem hr he
  obtain heq | ⟨_, -, heq⟩ := asks_comparison hasks <;> simp [heq, Request.isOfComparison]

/-- A payload that is not compared is written at once. -/
theorem ends_writeTarget_at_once {payload : Json} {a : Option (Except Failure Unit)}
    (error : Option Failure) (hf : f.payload = .ok payload)
    (ha : boundedResult p "cache write" .cacheWrite a =
      match error with
      | none => .ok ()
      | some e => .error e) :
    (writeTarget p r.uncompared f).Ends
      [cancelAnswer false, ⟨.call (writeCall p r f.target payload) p.ioTimeout, a⟩]
      ⟨f.target, f.attempts, error, none⟩ := by
  have hskip : (comparison p r.uncompared f.target payload).Ends [] none := by simp [comparison]
  simp only [writeTarget, hf, ends_bind, ends_request]
  refine ⟨[cancelAnswer false], _, false, rfl, rfl, ?_⟩
  simp only [Bool.false_eq_true, if_false, ends_bind, ends_bounded]
  refine ⟨_, _, none, (List.nil_append _).symm, hskip, _, [], _, (List.append_nil _).symm,
    ⟨a, rfl, ha.symm⟩, ?_⟩
  cases error <;> exact ends_pure.2 ⟨rfl, rfl⟩

/-- A target is written in the same way when it is not compared. -/
theorem ends_writeTarget_uncompared {report : TargetReport}
    (hr : (writeTarget p r f).Ends h report) :
    (writeTarget p r.uncompared f).Ends (uncompared h) report.blind := by
  have hmade : ∀ {payload : Json} {k : List Exchange} {c : Option Comparison}
      {a : Option (Except Failure Unit)}, (comparison p r f.target payload).Ends k c →
      uncompared (cancelAnswer false :: (k ++
        [⟨.call (writeCall p r f.target payload) p.ioTimeout, a⟩])) =
      [cancelAnswer false, ⟨.call (writeCall p r f.target payload) p.ioTimeout, a⟩] := by
    intro payload k c a hk
    rw [← List.singleton_append, uncompared_append, uncompared_append,
      uncompared_of_ends_comparison hk]
    rfl
  cases ends_writeTarget hr with
  | unfetched hf =>
    rw [writeTarget, hf]
    exact ends_pure.2 ⟨rfl, rfl⟩
  | refused hf =>
    simp only [writeTarget, hf, ends_bind, ends_request]
    exact ⟨[cancelAnswer true], [], true, rfl, rfl, by simp [TargetReport.blind]⟩
  | written hf hk =>
    have hends := ends_writeTarget_at_once (p := p) (r := r) (a := some (.ok ())) none hf rfl
    rw [← hmade hk] at hends
    exact hends
  | unwritten hf hk ha =>
    have hends := ends_writeTarget_at_once (r := r) (some _) hf ha
    rw [← hmade hk] at hends
    exact hends

theorem ends_writeTargets_uncompared {fs : List Fetched} {reports : List TargetReport}
    (hr : (writeTargets p r fs).Ends h reports) :
    (writeTargets p r.uncompared fs).Ends (uncompared h) (reports.map TargetReport.blind) := by
  induction fs generalizing h reports with
  | nil =>
    simp only [writeTargets, ends_pure] at hr ⊢
    simp [hr.1, hr.2]
  | cons f fs ih =>
    simp only [writeTargets, ends_bind, ends_pure] at hr ⊢
    obtain ⟨h₁, _, report, rfl, hhead, h₂, _, others, rfl, htail, rfl, rfl⟩ := hr
    exact ⟨_, _, _, uncompared_append .., ends_writeTarget_uncompared hhead, _, [], _,
      by simp, ih htail, rfl, rfl⟩

theorem expirePrevious_blind : expirePrevious p r.blind = expirePrevious p r := by
  simp only [expirePrevious, KindReport.blind, List.map_map, Function.comp_def,
    TargetReport.target_blind]

theorem ends_commitKind_blind {report : KindReport} (hr : (commitKind p r).Ends h report) :
    (commitKind p r.blind).Ends (uncompared h) report.blind := by
  have hsame : uncompared h = h := by
    refine List.filter_eq_self.2 fun e he => ?_
    obtain ⟨_, hasks⟩ := Path.asks_of_mem hr he
    obtain ⟨-, ⟨-, heq⟩ | ⟨-, heq⟩ | ⟨_, -, hasks⟩⟩ := asks_commitKind hasks
    · rw [heq]
      rfl
    · rw [heq]
      rfl
    · obtain ⟨_, -, -, _, -, heq⟩ := asks_expirePrevious hasks
      rw [heq]
      rfl
  rw [hsame]
  simp only [commitKind, KindReport.fullyWritten_blind] at hr ⊢
  by_cases hfull : r.fullyWritten
  · simp only [hfull, Bool.not_true, Bool.false_eq_true, if_false, ends_bind, ends_request] at hr ⊢
    obtain ⟨h₁, h₂, cancelled, rfl, rfl, hr⟩ := hr
    refine ⟨_, h₂, cancelled, rfl, rfl, ?_⟩
    cases cancelled with
    | true =>
      simp only [if_true, ends_pure] at hr ⊢
      exact ⟨hr.1, congrArg _ hr.2⟩
    | false =>
      simp only [Bool.false_eq_true, if_false, ends_bind] at hr ⊢
      obtain ⟨h₃, h₄, result, rfl, hcommit, hr⟩ := hr
      refine ⟨h₃, h₄, result, rfl, hcommit, ?_⟩
      cases result with
      | error e =>
        simp only [ends_pure] at hr ⊢
        obtain ⟨rfl, rfl⟩ := hr
        exact ⟨rfl, rfl⟩
      | ok =>
        simp only [ends_bind, ends_pure, expirePrevious_blind] at hr ⊢
        obtain ⟨h₅, h₆, u, rfl, hexpire, rfl, rfl⟩ := hr
        exact ⟨h₅, [], u, rfl, hexpire, rfl, rfl⟩
  · simp only [hfull, Bool.not_false, if_true, ends_pure] at hr ⊢
    obtain ⟨rfl, rfl⟩ := hr
    exact ⟨rfl, rfl⟩

/-- Writes and commits kinds without comparing anything. -/
def processUncompared (p : SyncPolicy) (fetched : List Fetched) :
    List KindReport → Program (List KindReport)
  | [] => pure []
  | r :: rest => do
    let targets ← writeTargets p r.uncompared (fetched.filter fun f => f.target.kind = r.kind)
    let report ← commitKind p { r with targets := targets }
    let others ← processUncompared p fetched rest
    pure (report :: others)

/-- **Kinds are processed in the same way when nothing is compared.** -/
theorem ends_processKinds_uncompared {rs reports : List KindReport}
    (hr : (processKinds p results rs).Ends h reports) :
    (processUncompared p results rs).Ends (uncompared h) (reports.map KindReport.blind) := by
  induction rs generalizing h reports with
  | nil =>
    simp only [processKinds, ends_pure] at hr
    simp [processUncompared, hr.1, hr.2]
  | cons r rs ih =>
    obtain ⟨h₁, h₂, report, others, rfl, rfl, hhead, htail⟩ := ends_processKinds_cons hr
    obtain ⟨k, l, targets, rfl, hwrites, hcommit⟩ := ends_processKind hhead
    simp only [processUncompared, ends_bind, ends_pure]
    exact ⟨_, _, _, by rw [uncompared_append, uncompared_append, List.append_assoc],
      ends_writeTargets_uncompared hwrites, _, _, _, rfl, ends_commitKind_blind hcommit, _, [], _,
      by simp, ih htail, rfl, rfl⟩

/-- Without comparisons nothing is asked of the stores but to change them. -/
theorem asks_processUncompared {rs : List KindReport} {q : Request}
    (hr : (processUncompared p results rs).Asks h q) :
    q = .isCancelled ∨ ∃ c limit, q = .call c limit ∧ c.isEffect = true := by
  induction rs generalizing h with
  | nil => simp [processUncompared] at hr
  | cons r rs ih =>
    simp only [processUncompared, asks_bind, asks_pure, and_false, exists_false, or_false] at hr
    obtain hr | ⟨_, _, targets, rfl, -, hr | ⟨_, _, report, rfl, -, hr⟩⟩ := hr
    · obtain ⟨_, f, _, _, _, _, -, -, -, hr⟩ := asks_writeTargets hr
      obtain ⟨payload, -, ⟨-, rfl⟩ | ⟨_, -, hr⟩ | ⟨_, _, -, -, rfl⟩⟩ := asks_writeTarget hr
      · exact .inl rfl
      · simp [comparison] at hr
      · exact .inr ⟨_, _, rfl, rfl⟩
    · obtain ⟨-, ⟨-, rfl⟩ | ⟨-, rfl⟩ | ⟨_, -, hr⟩⟩ := asks_commitKind hr
      · exact .inl rfl
      · exact .inr ⟨_, _, rfl, rfl⟩
      · obtain ⟨_, -, -, _, -, rfl⟩ := asks_expirePrevious hr
        exact .inr ⟨_, _, rfl, rfl⟩
    · exact ih hr

/-! ## Two epochs -/

/-- The entry of the version before, of a kind whose version has changed. -/
def Baseline (start : World) (t : List Moment) (key : CacheKey) : Prop :=
  ∃ (target : FetchTarget) (old : Version), key = target.key old ∧
    start.versions.get target.kind = some old ∧
      ∀ m, Brought t .metadata m → m.latest target.kind ≠ old

/-- Two fates differ at most in how reads of the cache turn out. -/
structure Fate.AgreesOffReads (fate fate' : Fate) : Prop where
  metadata : fate.metadata = fate'.metadata
  fetch : fate.fetch = fate'.fetch
  store : ∀ c, (∀ key, c ≠ .read key) → fate.store c = fate'.store c

/-- Two epochs differ at most in when they took place and in what comparisons have told them. -/
structure Unswayed (t t' : List Moment) (epoch epoch' : Epoch) : Prop where
  /-- The same attempts are made to fetch the same targets. -/
  fetches_eq : ∀ n, exchanges (.job n) t = exchanges (.job n) t'
  /-- The same payloads are written, the same versions committed and the same entries removed, in the
  same order. -/
  effects_eq : effects t = effects t'
  epoch_eq : ∃ started finished,
    epoch'.blind = { epoch.blind with started := started, finished := finished }

theorem World.agrees_of_isEffect (w w' : World) {c : Call} (hc : c.isEffect = true) :
    w.Agrees w' c := by
  intro x x' _ _
  cases c with
  | write | commit | invalidate => rfl
  | metadata | fetch | player | versions | read | exist => cases hc

theorem Call.isOfStores_of_isEffect {c : Call} (hc : c.isEffect = true) : c.isOfStores = true := by
  cases c <;> first | rfl | cases hc

theorem Call.lookedAt?_of_isEffect {c : Call} (hc : c.isEffect = true) : c.lookedAt? = none := by
  cases c <;> first | rfl | cases hc

/-- An epoch that is never cancelled notes nothing but its kinds. -/
theorem Fated.epoch_eq_of_aftermath {e finished : Epoch} {began : Timestamp} {m : Metadata}
    {stored : StoredVersions} {rest : List Exchange}
    (hf : Fated p trigger fate start t finished w) (hd : start.cache.Distinct)
    (hpart : rest ⊆ exchanges .epoch t)
    (ha : Aftermath p t (.start trigger began) (.ok (m, stored)) rest e) :
    e = { Epoch.start trigger began with kinds := e.kinds } := by
  obtain rfl | ⟨c, hlook, heq⟩ := ha.epoch_eq
  · rfl
  · obtain rfl : c = false := hf.settles hd (hpart hlook) nofun
    exact heq

theorem blind_finalize {began ceased : Timestamp} (kinds : List KindReport) :
    ({ Epoch.start trigger began with kinds := kinds }.finalize ceased).blind =
      { Epoch.start trigger began with
        kinds := kinds.map KindReport.blind, finished := some ceased
        outcome := some (.decide (kinds.map KindReport.blind)) } := by
  simp [Epoch.finalize, Epoch.blind, Epoch.collect, Epoch.verdict, Epoch.start]

/-- **Two epochs that differ in their baselines do the same**, and report the same but for their
comparisons. -/
theorem Fated.unswayed (one : Fated p trigger fate start t epoch w)
    (two : Fated p trigger fate' start' t' epoch' w') (hd : start.cache.Distinct)
    (hd' : start'.cache.Distinct) (hagree : fate.AgreesOffReads fate')
    (hversions : start.versions = start'.versions)
    (hcache : ∀ key, ¬ Baseline start t key →
      start.cache.live? start.now key = start'.cache.live? start'.now key)
    (hu : ∀ key, ¬ Baseline start t key → Unexpired start w key ∧ Unexpired start' w' key) :
    Unswayed t t' epoch epoch' := by
  have run := one.run
  have run' := two.run
  obtain @⟨began, ceased, c, rest, last, result, e, split, checked, aftermath, silent⟩ := run.passage
  obtain @⟨began', ceased', c', rest', last', result', e', split', checked', aftermath', silent'⟩ :=
    run'.passage
  obtain ⟨rfl, rfl⟩ := one.check_unique two hd hd' hagree.metadata
    (hagree.store .versions fun key heq => by cases heq) hversions split split' checked checked'
  have hpart : rest ⊆ exchanges .epoch t := fun d hmem => by simp [split, hmem]
  have hpart' : rest' ⊆ exchanges .epoch t' := fun d hmem => by simp [split', hmem]
  have heffects : (callsOf rest).filter Call.isEffect = (callsOf rest').filter Call.isEffect →
      effects t = effects t' := by
    intro heq
    rw [run.effects_eq_of_split split silent, run'.effects_eq_of_split split' silent', heq]
  cases result with
  | error f =>
    cases aftermath with
    | failed _ selected =>
      cases aftermath' with
      | failed _ selected' =>
        refine ⟨fun n => ?_, heffects rfl, began', some ceased', ?_⟩
        · rw [run.exchanges_job_of_unselected selected, run'.exchanges_job_of_unselected selected']
        · cases f <;> rfl
  | ok known =>
    obtain ⟨m, stored⟩ := known
    have htold : Brought t .metadata m := by
      refine ⟨.epoch, advertisement p m, mem_exchanges.1 ?_, .attempt _⟩
      simp [split, ((ends_check_ok checked).1 m).2 rfl]
    obtain ⟨survey, work, sels, results, s⟩ := aftermath.sequel run rfl
    obtain ⟨survey', work', sels', results', s'⟩ := aftermath'.sequel run' rfl
    obtain ⟨-, rfl⟩ := one.ends_unique two hd hd' (List.Subset.trans s.survey_subset hpart)
      (List.Subset.trans s'.survey_subset hpart') s.surveyed s'.surveyed fun h q hq => by
        obtain ⟨kind, -, hsame, target, ht, rfl⟩ := asks_selectKinds_unchanged hq
        refine ⟨rfl, ?_⟩
        rintro call limit ⟨⟩
        -- What is looked up is the entry of a version that has not changed.
        have hnot : ¬ Baseline start t (target.key (m.latest kind)) := by
          rintro ⟨target', old, hkey, -, hchanged⟩
          obtain ⟨rfl, rfl⟩ := FetchTarget.key_inj hkey
          rw [SyncPolicy.kind_of_mem_targets ht] at hchanged
          exact hchanged m htold rfl
        refine ⟨hagree.store _ (fun key heq => by cases heq), fun x x' hx hx' => ?_, ?_⟩
        · rw [show x = _ from hx, show x' = _ from hx', MemoryCache.contains, MemoryCache.contains,
            hcache _ hnot]
        · rintro key ⟨⟩
          exact hu _ hnot
    obtain ⟨hfetches, rfl⟩ := one.jobs_unique two hd hd' s.fetched s'.fetched
      (nodup_of_ends_selectKinds s.surveyed) hagree.fetch
    obtain ⟨hwork, hkinds⟩ := one.ends_unique two hd hd'
      (List.Subset.trans (uncompared_subset work) (List.Subset.trans s.work_subset hpart))
      (List.Subset.trans (uncompared_subset work') (List.Subset.trans s'.work_subset hpart'))
      (ends_processKinds_uncompared s.processed) (ends_processKinds_uncompared s'.processed)
      fun h q hq => by
        obtain rfl | ⟨call, limit, rfl, heffect⟩ := asks_processUncompared hq
        · exact ⟨rfl, fun _ _ heq => by cases heq⟩
        · refine ⟨Call.isOfStores_of_isEffect heffect, ?_⟩
          rintro _ _ ⟨⟩
          refine ⟨hagree.store _ ?_, start.agrees_of_isEffect start' heffect, ?_⟩
          · rintro key rfl
            cases heffect
          · intro key hkey
            rw [Call.lookedAt?_of_isEffect heffect] at hkey
            cases hkey
    refine ⟨hfetches, heffects ?_, began', some ceased', ?_⟩
    · rw [s.effects_eq, s'.effects_eq, ← effects_uncompared, hwork, effects_uncompared]
    · have hone := one.epoch_eq_of_aftermath hd hpart aftermath
      have htwo := two.epoch_eq_of_aftermath hd' hpart' aftermath'
      rw [hone, htwo, blind_finalize, blind_finalize, hkinds]
      rfl

/-! ## Comparisons that fail -/

/-- Every target whose comparison has failed is listed, and its payload is written all the same. -/
def ListsUnknown (p : SyncPolicy) (t : List Moment) (epoch : Epoch) : Prop :=
  ∀ r ∈ epoch.kinds, ∀ x ∈ r.targets, ∀ reason, x.comparison = some (.unknown reason) →
    x.target ∈ epoch.unknownChanges ∧
      ∃ payload, Brought t (.fetch x.target r.newVersion p.unzip) payload ∧
        Call.write (x.target.key r.newVersion) payload (p.lifetime x.target.kind) ∈ effects t

/-- A comparison is made of a payload that is written then. -/
theorem TargetCourse.written_of_compared {report : TargetReport} (hc : TargetCourse p r f h report)
    {c : Comparison} (hreport : report.comparison = some c) :
    ∃ payload a, f.payload = .ok payload ∧
      ⟨.call (writeCall p r f.target payload) p.ioTimeout, a⟩ ∈ h := by
  cases hc with
  | unfetched | refused => cases hreport
  | written hf => exact ⟨_, some (.ok ()), hf, by simp⟩
  | @unwritten payload k c' a e hf => exact ⟨payload, a, hf, by simp⟩

theorem Run.listsUnknown (run : Run p trigger t (.ended epoch)) : ListsUnknown p t epoch := by
  intro r hr x hx reason hreason
  constructor
  · obtain @⟨_, _, _, _, _, _, e, -, -, -, -⟩ := run.passage
    exact List.mem_filterMap.2 ⟨x, List.mem_flatMap.2 ⟨r, hr, hx⟩, by simp [hreason]⟩
  · obtain ⟨m, stored, sels, results, sel, k, settled, completed, hsel, hp⟩ :=
      run.processed_of_report hr
    obtain ⟨-, -, hnew, k', hk', hcourses⟩ := report_of_ends_processKind hp.ends
    obtain ⟨f, hf, l, hl, hcourse⟩ := hcourses.exists_of_mem.2 x hx
    obtain ⟨payload, a, hpayload, hmem⟩ := hcourse.written_of_compared hreason
    obtain ⟨hf, hsame⟩ := List.mem_filter.1 hf
    have hkind : f.target.kind = sel.report.kind := by simpa using hsame
    have hcall := run.mem_calls_of_exchange (hp.part (hk' (hl hmem))) rfl
    rw [hcourse.target_eq, hnew]
    exact ⟨payload, completed.brought_of_result settled hsel hf hkind hpayload,
      List.mem_filter.2 ⟨hcall, rfl⟩⟩

/-- **Comparisons decide nothing.** Two epochs that are never cancelled, and that differ only in what
the cache holds or answers of the versions before, make the same fetches, do the same to the stores in
the same order, and report the same but for their comparisons, as long as no other entry expires. The
payloads may be any values, among them such as cannot be compared: every target whose comparison has
failed is listed, and written all the same. -/
theorem baselines (p : SyncPolicy) (trigger : Trigger) {fate fate' : Fate}
    (hagree : fate.AgreesOffReads fate') {start start' : World}
    (hversions : start.versions = start'.versions) (hd : start.cache.Distinct)
    (hd' : start'.cache.Distinct) {t t' : List Moment} {epoch epoch' : Epoch} {w w' : World}
    (one : Fated p trigger fate start t epoch w) (two : Fated p trigger fate' start' t' epoch' w')
    (hcache : ∀ key, ¬ Baseline start t key →
      start.cache.live? start.now key = start'.cache.live? start'.now key)
    (hu : ∀ key, ¬ Baseline start t key → Unexpired start w key ∧ Unexpired start' w' key) :
    Unswayed t t' epoch epoch' ∧ ListsUnknown p t epoch ∧ ListsUnknown p t' epoch' :=
  ⟨one.unswayed two hd hd' hagree hversions hcache hu, one.run.listsUnknown, two.run.listsUnknown⟩

/-- Both kinds have a new version, and the payload is an object without members: it is a localization, but
game data without collections cannot be compared. One epoch finds no baselines, and another one finds one
of the localization that cannot be read in time. The game data is written all the same. -/
theorem baselines_unread :
    let m : Metadata := ⟨⟨"2"⟩, ⟨"2"⟩⟩
    let stored : StoredVersions := ⟨some ⟨"1"⟩, some ⟨"1"⟩⟩
    let cache := MemoryCache.empty.write 0 (FetchTarget.localization.key ⟨"1"⟩) (.string "junk")
      (.seconds 60)
    let start : World := ⟨0, .empty, stored, []⟩
    let start' : World := ⟨0, cache, stored, []⟩
    let incomparable := Diff.Incomparable.missingCollection .full "category"
    ∃ t t' epoch epoch' w w',
      Fated .fullOnly .manual (.steady m (.object []) fun _ => false) start t epoch w ∧
      Fated .fullOnly .manual (.steady m (.object []) fun c => c matches .read _) start' t' epoch' w' ∧
      Unswayed t t' epoch epoch' ∧ epoch.unknownChanges = [.gameData .full] ∧
      epoch'.unknownChanges = [.gameData .full, .localization] ∧
      (∃ r ∈ epoch.kinds, ∃ x ∈ r.targets, x.target = .gameData .full ∧
        x.comparison = some (.unknown incomparable.failure.message)) ∧
      Call.write ((FetchTarget.gameData .full).key ⟨"2"⟩) (.object [])
        (SyncPolicy.fullOnly.lifetime .gameData) ∈ effects t := by
  intro m stored cache start start' incomparable
  let first := (Conduct.steady m stored (.object []) fun _ => false).play .fullOnly .manual false
  let second := (Conduct.steady m stored (.object []) fun c => c matches .read _).play .fullOnly
    .manual false
  have hconforms : ∀ x ∈ first.history, (Conduct.steady m stored (.object []) fun _ => false).Conforms
    x := Conduct.play_conforms fun _ => rfl
  have hworlds : (start.follow? first.history).isSome = true ∧
      (start'.follow? second.history).isSome = true := by
    decide +kernel
  have hunknown : first.result.unknownChanges = [.gameData .full] ∧
      second.result.unknownChanges = [.gameData .full, .localization] := by
    decide +kernel
  have hrejected : (first.result.kinds.any fun r => r.newVersion = ⟨"2"⟩ && r.targets.any fun x =>
      x.target = .gameData .full &&
        x.comparison = some (.unknown incomparable.failure.message)) = true := by
    decide +kernel
  simp only [List.any_eq_true, Bool.and_eq_true, decide_eq_true_eq] at hrejected
  obtain ⟨r, hr, hnew, x, hx, htarget, hcomparison⟩ := hrejected
  obtain ⟨w, hfollow⟩ := Option.isSome_iff_exists.1 hworlds.1
  obtain ⟨w', hfollow'⟩ := Option.isSome_iff_exists.1 hworlds.2
  have one : Fated .fullOnly .manual (.steady m (.object []) fun _ => false) start first.history
    first.result w := .of_play hfollow
  have two : Fated .fullOnly .manual (.steady m (.object []) fun c => c matches .read _) start'
    second.history second.result w' := .of_play hfollow'
  clear_value first second
  have hagree : (Fate.steady m (.object []) fun _ => false).AgreesOffReads
      (.steady m (.object []) fun c => c matches .read _) := by
    refine ⟨rfl, rfl, fun c hc => ?_⟩
    cases c with
    | read key => exact absurd rfl (hc key)
    | metadata | fetch | player | versions | commit | exist | write | invalidate => rfl
  have hbaseline : Baseline start first.history (FetchTarget.localization.key ⟨"1"⟩) := by
    refine ⟨.localization, ⟨"1"⟩, rfl, rfl, fun m' hb => ?_⟩
    obtain rfl := Conduct.advertised_of_conforms hconforms hb
    decide
  have hcache : ∀ key, ¬ Baseline start first.history key →
      start.cache.live? 0 key = start'.cache.live? 0 key := by
    intro key hkey
    have hne : key ≠ FetchTarget.localization.key ⟨"1"⟩ := by
      rintro rfl
      exact hkey hbaseline
    exact (MemoryCache.live?_write_of_ne _ 0 0 hne _ _).symm
  have hversions : start.versions = start'.versions := rfl
  obtain ⟨hsame, hlists, -⟩ := baselines .fullOnly .manual hagree hversions
    MemoryCache.distinct_empty (MemoryCache.distinct_empty.write _ _ _ _) one two hcache fun key _ =>
      ⟨unexpired_of_now_eq (World.now_of_follow? hfollow) key,
        unexpired_of_now_eq (World.now_of_follow? hfollow') key⟩
  obtain ⟨-, payload, hfetched, hwritten⟩ := hlists r hr x hx _ hcomparison
  obtain rfl : payload = .object [] :=
    Conduct.eq_of_conforms hconforms hfetched rfl (fun _ => rfl) fun _ => rfl
  rw [htarget, hnew] at hwritten
  exact ⟨_, _, _, _, w, w', one, two, hsame, hunknown.1, hunknown.2,
    ⟨r, hr, x, hx, htarget, hcomparison⟩, hwritten⟩

end Engine

end ContentSync
