import ContentSync.Proofs.Engine.Closing
import ContentSync.Proofs.Engine.Entries

/-!
# The footprint of an epoch

An epoch writes new versions of what it has selected, removes old versions of what it has committed,
and does nothing else to the stores.

* `Footprint` / `Run.footprint_of_calls` — which keys are written and removed, and which versions are
  committed;
* `Epoch.Spares` / `Run.keeps_spared` — an epoch that neither restores nor commits a kind keeps the
  entries of its committed version;
* `Spared` / `Spared.keeps` — so do any number of such epochs;
* `Compared` / `Run.compared` — a later epoch compares with the payload that was written last;
* `World.KeepsOthers` / `keepsOthers_of_concerns` — processing a kind leaves the entries of the other
  kind and of players alone;
* `Run.footprint` — all of this together.
-/

set_option autoImplicit false

namespace ContentSync

/-- An epoch neither restores nor commits a kind. -/
def Epoch.Spares (e : Epoch) (kind : DataKind) : Prop :=
  ∀ r ∈ e.kinds, r.kind = kind → r.restored = false ∧ r.committed = false

namespace Engine

open Program

variable {p : SyncPolicy} {trigger : Trigger} {t u : List Moment} {s : Situation} {epoch : Epoch}
  {start w w' : World} {kind : DataKind}

/-! ## Calls -/

/-- The entries that an epoch writes and removes, and the versions that it commits. -/
structure Footprint (t : List Moment) (epoch : Epoch) : Prop where
  /-- Only selected targets of reported kinds are written, for the new version. -/
  written : ∀ key payload lifetime, Call.write key payload lifetime ∈ calls t →
    ∃ r ∈ epoch.kinds, ∃ x ∈ r.targets, key = x.target.key r.newVersion ∧ x.target.kind = r.kind ∧
      ∃ jobs, selections t = [jobs] ∧ (x.target, r.newVersion) ∈ jobs
  /-- Only entries of another version than the committed one are removed. -/
  removed : ∀ key, Call.invalidate key ∈ calls t →
    ∃ r ∈ epoch.kinds, ∃ x ∈ r.targets, ∃ old, key = x.target.key old ∧ x.target.kind = r.kind ∧
      r.committed = true ∧ Brought t (.commit r.kind r.newVersion) () ∧
      r.oldVersion = some old ∧ old ≠ r.newVersion
  committed : ∀ kind v, Call.commit kind v ∈ calls t →
    ∃ r ∈ epoch.kinds, r.kind = kind ∧ r.newVersion = v

section

variable {m : Metadata} {stored : StoredVersions} {sels : List Selection} {results : List Fetched}
  {sel : Selection} {report : KindReport} {k : List Exchange} {e : Exchange} {limit : Duration}

/-- The targets of a report are targets of its kind, and were selected. -/
theorem Completed.selected_of_mem (hc : Completed p t epoch sels results)
    (hs : Settled p t m stored sels) (hsel : sel ∈ sels) (hp : Processed p t results sel report k)
    {x : TargetReport} (hx : x ∈ report.targets) :
    x.target.kind = report.kind ∧
      ∃ jobs, selections t = [jobs] ∧ (x.target, report.newVersion) ∈ jobs := by
  obtain ⟨hkind, -, hnew⟩ := hp.report_eq
  have htarget := (hc.mem_targets_iff hs hsel hp).1 ⟨x, hx, rfl⟩
  obtain ⟨-, -, -, hmem⟩ := hs.selected sel hsel
  have hxkind := SyncPolicy.kind_of_mem_targets ((hmem _).1 htarget).1
  rw [hkind, hnew]
  exact ⟨hxkind, _, hc.selections_eq, (hs.mem_jobs_iff hsel hxkind).2 ⟨rfl, htarget⟩⟩

/-- What is written for a kind is the new version of one of its targets. -/
theorem Processed.of_write (hp : Processed p t results sel report k) (he : e ∈ k) {key : CacheKey}
    {payload : Json} {lifetime : Duration} (hr : e.request = .call (.write key payload lifetime) limit) :
    ∃ x ∈ report.targets, key = x.target.key report.newVersion := by
  obtain ⟨-, -, hnew, k', -, hcourses⟩ := report_of_ends_processKind hp.ends
  obtain ⟨_, hasks⟩ := Path.asks_of_mem hp.ends he
  rw [hr] at hasks
  obtain hasks | ⟨_, _, targets, -, -, hasks⟩ := asks_processKind hasks
  · obtain ⟨before, f, after, _, _, _, heq, -, -, hasks⟩ := asks_writeTargets hasks
    obtain ⟨_, -, ⟨-, heq'⟩ | ⟨_, -, hasks⟩ | ⟨_, _, -, -, heq'⟩⟩ := asks_writeTarget hasks
    · cases heq'
    · obtain heq' | ⟨_, -, heq'⟩ := asks_comparison hasks <;> cases heq'
    · cases heq'
      have hmem : f.target ∈ report.targets.map (·.target) := by
        rw [hcourses.map_target, heq]
        simp
      obtain ⟨x, hx, hxt⟩ := List.mem_map.1 hmem
      exact ⟨x, hx, by rw [hxt, hnew]⟩
  · obtain ⟨-, ⟨-, heq⟩ | ⟨-, heq⟩ | ⟨_, -, hasks⟩⟩ := asks_commitKind hasks
    · cases heq
    · cases heq
    · obtain ⟨_, -, -, _, -, heq⟩ := asks_expirePrevious hasks
      cases heq

/-- What is removed for a kind is the old version of one of its targets, after the commit. -/
theorem Processed.of_invalidate (hp : Processed p t results sel report k) (he : e ∈ k)
    {key : CacheKey} (hr : e.request = .call (.invalidate key) limit) :
    ∃ x ∈ report.targets, ∃ old, key = x.target.key old ∧ report.committed = true ∧
      Brought t (.commit report.kind report.newVersion) () ∧ report.oldVersion = some old ∧
      old ≠ report.newVersion := by
  obtain ⟨hkind, hold, hnew, k', -, hcourses⟩ := report_of_ends_processKind hp.ends
  obtain ⟨k₁, k₂, rfl⟩ := List.append_of_mem he
  have hasks := Path.asks_of_append hp.ends
  rw [hr] at hasks
  obtain hasks | ⟨l₁, l₂, targets, rfl, hwrites, hasks⟩ := asks_processKind hasks
  · have hcalls := (asks_writeTargets_concerns hasks).2 _ _ rfl
    simp at hcalls
  obtain ⟨-, ⟨-, heq⟩ | ⟨-, heq⟩ | ⟨l, rfl, hremoval⟩⟩ := asks_commitKind hasks
  · cases heq
  · cases heq
  obtain ⟨old, hwas, hne, x, hx, heq⟩ := asks_expirePrevious hremoval
  cases heq
  have hcommit : ⟨.call (commitCall sel.report) p.ioTimeout, some (.ok ())⟩ ∈
      (l₁ ++ cancelAnswer false ::
        ⟨.call (commitCall sel.report) p.ioTimeout, some (.ok ())⟩ :: l) ++ e :: k₂ := by
    simp
  have hmem : x.target ∈ report.targets.map (·.target) := by
    rw [hcourses.map_target, ← (ends_writeTargets hwrites).map_target]
    exact List.mem_map_of_mem hx
  obtain ⟨y, hy, hyt⟩ := List.mem_map.1 hmem
  refine ⟨y, hy, old, by rw [hyt], (committed_of_ends_processKind hp.ends).2 hcommit, ?_,
    hold.trans hwas, by rwa [hnew]⟩
  refine ⟨.epoch, _, mem_exchanges.1 (hp.part hcommit), ?_⟩
  rw [hkind, hnew]
  exact .call _

/-- What is committed for a kind is its new version. -/
theorem Processed.of_commit (hp : Processed p t results sel report k) (he : e ∈ k)
    {v : Version} (hr : e.request = .call (.commit kind v) limit) :
    report.kind = kind ∧ report.newVersion = v ∧ limit = p.ioTimeout := by
  obtain ⟨hkind, -, hnew, -⟩ := report_of_ends_processKind hp.ends
  obtain ⟨_, hasks⟩ := Path.asks_of_mem hp.ends he
  rw [hr] at hasks
  obtain hasks | ⟨_, _, targets, -, -, hasks⟩ := asks_processKind hasks
  · have hcalls := (asks_writeTargets_concerns hasks).2 _ _ rfl
    simp at hcalls
  obtain ⟨-, ⟨-, heq⟩ | ⟨-, heq⟩ | ⟨_, -, hasks⟩⟩ := asks_commitKind hasks
  · cases heq
  · cases heq
    exact ⟨hkind, hnew, rfl⟩
  · obtain ⟨_, -, -, _, -, heq⟩ := asks_expirePrevious hasks
    cases heq

end

/-- **Every effect of an epoch belongs to one of the kinds that it reports.** -/
theorem Run.footprint_of_calls (run : Run p trigger t (.ended epoch)) : Footprint t epoch where
  written := by
    intro key payload lifetime hc
    obtain ⟨m, stored, sels, results, sel, r, k, e, hs, hcompleted, hsel, hr, hp, he, limit,
      hrequest⟩ := run.exists_processed hc rfl
    obtain ⟨x, hx, rfl⟩ := hp.of_write he hrequest
    exact ⟨r, hr, x, hx, rfl, hcompleted.selected_of_mem hs hsel hp hx⟩
  removed := by
    intro key hc
    obtain ⟨m, stored, sels, results, sel, r, k, e, hs, hcompleted, hsel, hr, hp, he, limit,
      hrequest⟩ := run.exists_processed hc rfl
    obtain ⟨x, hx, old, rfl, hcommitted⟩ := hp.of_invalidate he hrequest
    exact ⟨r, hr, x, hx, old, rfl, (hcompleted.selected_of_mem hs hsel hp hx).1, hcommitted⟩
  committed := by
    intro kind v hc
    obtain ⟨m, stored, sels, results, sel, r, k, e, hs, hcompleted, hsel, hr, hp, he, limit,
      hrequest⟩ := run.exists_processed hc rfl
    obtain ⟨hkind, hv, -⟩ := hp.of_commit he hrequest
    exact ⟨r, hr, hkind, hv⟩

/-! ## Reports -/

/-- Kinds are reported once, with the versions that the epoch was told. -/
theorem Run.reports_eq (run : Run p trigger t (.ended epoch)) :
    (epoch.kinds.map (·.kind)).Nodup ∧ ∀ r ∈ epoch.kinds, ∃ m stored,
      (∀ m', Brought t .metadata m' ↔ m' = m) ∧
      (∀ stored', Brought t .versions stored' ↔ stored' = stored) ∧
      r.newVersion = m.latest r.kind ∧ r.oldVersion = stored.get r.kind := by
  constructor
  · cases run.closed with
    | failed kinds_eq => simp [kinds_eq]
    | idle kinds_eq => simp [kinds_eq]
    | completed hs hc =>
      rw [hc.kinds_eq]
      exact hs.nodup_kinds
  · intro r hr
    obtain ⟨m, stored, sels, results, sel, k, hs, -, hsel, hp⟩ := run.processed_of_report hr
    obtain ⟨hkind, hold, hnew⟩ := hp.report_eq
    obtain ⟨hcommitted, hadvertised, -⟩ := hs.selected sel hsel
    exact ⟨m, stored, hs.advertised, hs.committed, by rw [hnew, hadvertised, hkind],
      by rw [hold, hcommitted, hkind]⟩

/-- A kind that was committed is reported so, with its version. -/
theorem Run.committed_of_brought (run : Run p trigger t (.ended epoch)) {v : Version}
    (hb : Brought t (.commit kind v) ()) :
    ∃ r ∈ epoch.kinds, r.kind = kind ∧ r.committed = true ∧ r.newVersion = v := by
  obtain ⟨e, he, hb, limit, hrequest⟩ := run.exchange_of_brought hb rfl
  obtain ⟨m, stored, sels, results, sel, r, k, -, -, -, hr, hp, hk⟩ :=
    run.processed_of_mem he hb.call? rfl
  obtain ⟨hkind, -, hnew⟩ := hp.report_eq
  obtain ⟨rfl, rfl, rfl⟩ := hp.of_commit hk hrequest
  cases hb with
  | wait | attempt => cases hrequest
  | call limit =>
    cases hrequest
    rw [hkind, hnew] at hk
    exact ⟨r, hr, rfl, (committed_of_ends_processKind hp.ends).2 hk, rfl⟩

/-! ## Kinds that are spared -/

/-- A kind of which the committed version is written is restored. -/
theorem Run.restored_of_written (run : Run p trigger (t ++ u) (.ended epoch))
    (follows : Follows start t w) {target : FetchTarget} {old : Version}
    (hold : start.versions.get target.kind = some old) {payload : Json} {lifetime : Duration}
    (hb : Brought t (.write (target.key old) payload lifetime) ()) :
    ∃ r ∈ epoch.kinds, r.kind = target.kind ∧ r.restored = true := by
  obtain ⟨r, hr, x, hx, hkey, hkind, -⟩ :=
    run.footprint_of_calls.written _ _ _ (run.mem_calls_of_brought hb.append rfl)
  obtain ⟨rfl, rfl⟩ := FetchTarget.key_inj hkey
  refine ⟨r, hr, hkind.symm, ?_⟩
  -- The versions were told before the entry was written.
  obtain ⟨worker, e, he, hb⟩ := hb
  obtain ⟨t₁, t₂, rfl⟩ := List.append_of_mem he
  have run' : Run p trigger (t₁ ++ .answered worker e :: (t₂ ++ u)) (.ended epoch) := by
    simpa using run
  obtain ⟨-, _, _, _, _, _, _, _, _, hp, -⟩ := run'.asked_write (.answered e.answer) hb.call?
  obtain ⟨s₁, run₁, -⟩ := run'.split
  obtain ⟨m, stored, hselected, -⟩ := hp.selection run₁
  have htold : Brought (t₁ ++ .answered worker e :: t₂) .versions stored :=
    ((hselected.committed stored).2 rfl).append
  obtain rfl := (follows.tracked run).told stored htold
  obtain ⟨m', stored', -, hcommitted, -, hwas⟩ := run.reports_eq.2 r hr
  obtain rfl := (hcommitted _).1 htold.append
  simp [KindReport.restored, hwas, ← hkind, hold]

/-- **A part of an epoch that spares a kind keeps the entries of its committed version.** -/
theorem Run.keeps_spared (run : Run p trigger (t ++ u) (.ended epoch)) (hs : epoch.Spares kind)
    (follows : Follows start t w) (hd : start.cache.Distinct) {old : Version}
    (hold : start.versions.get kind = some old) {target : FetchTarget} (hkind : target.kind = kind) :
    start.Keeps w (target.key old) := by
  subst hkind
  refine follows.keeps hd fun worker e he touches => ?_
  cases touches with
  | written brings =>
    obtain ⟨r, hr, hkind, hrestored⟩ := run.restored_of_written follows hold ⟨worker, e, he, brings⟩
    rw [(hs r hr hkind).1] at hrestored
    cases hrestored
  | removed brings =>
    have hb : Brought (t ++ u) (.invalidate (target.key old)) () :=
      Brought.append ⟨worker, e, he, brings⟩
    obtain ⟨r, hr, x, hx, _, hkey, hkind, hcommitted, -⟩ :=
      run.footprint_of_calls.removed _ (run.mem_calls_of_brought hb rfl)
    obtain ⟨rfl, rfl⟩ := FetchTarget.key_inj hkey
    rw [(hs r hr hkind.symm).2] at hcommitted
    cases hcommitted

/-- The stores after any number of epochs that spare a kind. -/
inductive Spared (p : SyncPolicy) (kind : DataKind) (start : World) : World → Prop
  | start : Spared p kind start start
  | outside {w w' : World} (spared : Spared p kind start w) (step : Outside w w') :
    Spared p kind start w'
  | epoch {w w' : World} {trigger : Trigger} {t : List Moment} {epoch : Epoch}
    (spared : Spared p kind start w) (run : Run p trigger t (.ended epoch))
    (follows : Follows w t w') (spares : epoch.Spares kind) : Spared p kind start w'

/-- **Epochs that spare a kind keep its version and the entries of it.** -/
theorem Spared.keeps (spared : Spared p kind start w) (hd : start.cache.Distinct) {old : Version}
    (hold : start.versions.get kind = some old) :
    w.versions.get kind = some old ∧
      ∀ target : FetchTarget, target.kind = kind → start.Keeps w (target.key old) := by
  induction spared with
  | start => exact ⟨hold, fun target _ => World.keeps_self hd _⟩
  | outside _ step ih =>
    obtain ⟨hversion, hkept⟩ := ih
    refine ⟨by rw [step.versions_eq, hversion], fun target hkind => ?_⟩
    exact (hkept target hkind).trans (step.keeps (hkept target hkind).distinct target old)
  | @epoch w w' trigger t epoch _ run follows spares ih =>
    obtain ⟨hversion, hkept⟩ := ih
    have run' : Run p trigger (t ++ []) (.ended epoch) := by simpa using run
    refine ⟨?_, fun target hkind => ?_⟩
    · rw [(follows.tracked run').unchanged kind fun v hb => ?_, hversion]
      obtain ⟨r, hr, hkind, hcommitted, -⟩ := run.committed_of_brought hb
      rw [(spares r hr hkind).2] at hcommitted
      cases hcommitted
    · exact (hkept target hkind).trans
        (run'.keeps_spared spares follows (hkept target hkind).distinct hversion hkind)

/-! ## Comparisons -/

/-- How a target was compared with what had been cached of a version in an earlier world. -/
inductive Compared (p : SyncPolicy) (start w : World) (t : List Moment) (target : FetchTarget)
    (old new : Version) (c : Comparison) : Prop
  | intro {past rest : List Moment} {answer : Option (Except Failure (Option Json))} {w' : World}
    {payload : Json}
    (moment : t = past ++
      .answered .epoch ⟨.call (.read (target.key old)) p.ioTimeout, answer⟩ :: rest)
    (follows : Follows w past w') (fetched : Brought t (.fetch target new p.unzip) payload)
    (exact : ∀ baseline, answer = some (.ok baseline) →
      baseline = start.visible w'.now (target.key old) ∧ c = compare target baseline payload)

/-- When an entry of a target is read, its kind has not been committed yet. -/
theorem Run.not_brought_of_read {worker : Worker} {e : Exchange} {target : FetchTarget}
    {v : Version} (run : Run p trigger (t ++ .answered worker e :: u) s)
    (hq : e.request.call? = some (.read (target.key v))) (v' : Version) :
    ¬ Brought t (.commit target.kind v') () := by
  intro hb
  obtain ⟨target', _, hkey, hnot⟩ := run.not_commit_of_read (.answered e.answer) hq
  obtain ⟨rfl, -⟩ := FetchTarget.key_inj hkey
  obtain ⟨s₁, run₁, -⟩ := run.split
  obtain ⟨e', he', -, limit, hrequest⟩ := run₁.exchange_of_brought hb rfl
  exact hnot v' limit e' he' hrequest

/-- Until it is read, the entry of a committed version is kept by an epoch that does not restore
it. -/
theorem Run.keeps_until_read {past rest : List Moment} {worker : Worker} {e : Exchange}
    {target : FetchTarget} {old : Version}
    (run : Run p trigger (past ++ .answered worker e :: rest) (.ended epoch))
    (hq : e.request.call? = some (.read (target.key old))) (follows : Follows start past w)
    (hd : start.cache.Distinct) (hold : start.versions.get target.kind = some old)
    (hfresh : ∀ r ∈ epoch.kinds, r.kind = target.kind → r.restored = false) :
    start.Keeps w (target.key old) := by
  refine follows.keeps hd fun worker' e' he touches => ?_
  cases touches with
  | written brings =>
    obtain ⟨r, hr, hkind, hrestored⟩ :=
      run.restored_of_written follows hold ⟨worker', e', he, brings⟩
    rw [hfresh r hr hkind] at hrestored
    cases hrestored
  | removed brings =>
    obtain ⟨t₁, t₂, rfl⟩ := List.append_of_mem he
    have run' : Run p trigger (t₁ ++ .answered worker' e' :: (t₂ ++ .answered worker e :: rest))
        (.ended epoch) := by
      simpa using run
    obtain ⟨target', _, v', hkey, -, hcommit⟩ :=
      run'.committed_of_invalidate (.answered e'.answer) brings.call?
    obtain ⟨rfl, -⟩ := FetchTarget.key_inj hkey
    exact run.not_brought_of_read hq v' hcommit.append

/-- **A reported comparison is one with the payload that was written last**, where the cache gave
it. -/
theorem Run.compared (run : Run p trigger t (.ended epoch)) (follows : Follows w t w')
    (hsound : start.Sound) (spared : Spared p kind start w) {old : Version}
    (hold : start.versions.get kind = some old) {r : KindReport} (hr : r ∈ epoch.kinds)
    (hkind : r.kind = kind) {x : TargetReport} (hx : x ∈ r.targets) {c : Comparison}
    (hc : x.comparison = some c) : Compared p start w t x.target old r.newVersion c := by
  subst hkind
  obtain ⟨hversion, hkept⟩ := spared.keeps hsound.distinct hold
  obtain ⟨m, stored, sels, results, sel, k, hs, hcompleted, hsel, hp⟩ := run.processed_of_report hr
  obtain ⟨hkind, jobs, -, -⟩ := hcompleted.selected_of_mem hs hsel hp hx
  obtain ⟨-, hwas, hnew⟩ := hp.report_eq
  have hstored : r.oldVersion = some old := by
    obtain ⟨_, stored', -, htold, -, heq⟩ := run.reports_eq.2 r hr
    have run' : Run p trigger (t ++ []) (.ended epoch) := by simpa using run
    rw [heq, (follows.tracked run').told stored' ((htold _).2 rfl), hversion]
  -- The comparison was made for the fetched payload, with what was read.
  obtain ⟨-, -, -, k', hk', hcourses⟩ := report_of_ends_processKind hp.ends
  obtain ⟨f, hf, k'', hk'', hcourse⟩ := hcourses.exists_of_mem.2 x hx
  obtain ⟨payload, l, hpayload, hl, hends⟩ := hcourse.compared hc
  rw [hcourse.target_eq] at hkind ⊢
  obtain ⟨hfresh, ⟨hnone, -⟩ | ⟨old', answer, hold', hread, hexact⟩⟩ := ends_comparison hends
  · exact absurd (hnone.symm.trans (hwas.symm.trans hstored)) nofun
  obtain rfl : old = old' :=
    Option.some.inj (hstored.symm.trans (hwas.trans hold'))
  have hmem := hp.part (hk' (hk'' (hl hread)))
  obtain ⟨past, rest, rfl⟩ := List.append_of_mem (mem_exchanges.1 hmem)
  obtain ⟨w₂, follows₂, hanswers, -⟩ := follows.split
  refine .intro rfl follows₂ ?_ fun baseline hb => ⟨?_, hexact baseline hb⟩
  · rw [hnew]
    exact hcompleted.brought_of_result hs hsel (List.mem_of_mem_filter hf)
      (hkind.trans hp.report_eq.1) hpayload
  -- Until the read, nothing has been done to the entry.
  · have hother : ∀ r' ∈ epoch.kinds, r'.kind = f.target.kind → r'.restored = false := by
      intro r' hr' hsame
      obtain rfl := List.inj_on_of_nodup_map run.reports_eq.1 hr' hr (hsame.trans hkind)
      rw [KindReport.restored, hwas, hnew]
      exact hfresh
    have hkeeps := (hkept f.target hkind).trans
      (run.keeps_until_read rfl follows₂ (hkept f.target hkind).distinct
        (by rw [hkind]; exact hversion) hother)
    subst hb
    rw [show baseline = _ from hanswers (.read _) baseline (.call _),
      hkeeps.live?_eq (Nat.le_refl _), hsound.live?_eq _ _ hkeeps.now_le]

/-! ## Processing a kind -/

/-- Between two worlds, nothing has been done to the entries of players and to the entries and the
version of the other kind. -/
structure World.KeepsOthers (kind : DataKind) (w w' : World) : Prop where
  targets : ∀ (target : FetchTarget) (v : Version), target.kind ≠ kind →
    w'.cache.stored? (target.key v) = w.cache.stored? (target.key v)
  players : ∀ code, w'.cache.stored? (.ofPlayer code) = w.cache.stored? (.ofPlayer code)
  versions : ∀ other, other ≠ kind → w'.versions.get other = w.versions.get other

/-- What is called for a kind changes entries of its targets only. -/
theorem key_of_concerns {e : Exchange} (hc : e.request.Concerns kind) {c : Call}
    (hd : e.done? = some c) {key : CacheKey} (hk : c.key? = some key) :
    ∃ target v, target.kind = kind ∧ key = FetchTarget.key target v := by
  obtain ⟨x, hb⟩ := Exchange.exists_of_done? hd
  cases hb with
  | wait | attempt => exact hc.elim
  | call limit =>
    cases c with
    | read | write | invalidate =>
      obtain rfl := Option.some.inj hk
      exact hc
    | metadata | fetch | player | versions | commit | exist => cases hk

theorem keepsOthers_of_concerns {e : Exchange} (hc : e.request.Concerns kind) (w : World) :
    w.KeepsOthers kind (w.after e) where
  targets := by
    intro target v hne
    refine World.stored?_after_of_ne fun c hd hk => ?_
    obtain ⟨target', v', rfl, hkey⟩ := key_of_concerns hc hd hk
    obtain ⟨rfl, -⟩ := FetchTarget.key_inj hkey
    exact hne rfl
  players := by
    intro code
    refine World.stored?_after_of_ne fun c hd hk => ?_
    obtain ⟨target, v, -, hkey⟩ := key_of_concerns hc hd hk
    exact target.key_ne_ofPlayer v code hkey.symm
  versions := by
    intro other hne
    refine versions_after_of_ne fun v hb => ?_
    cases hb with
    | wait | attempt => exact hc.elim
    | call limit => exact hne hc

/-- **The footprint of an epoch.** It writes the new versions of selected targets and removes the old
versions of committed kinds; a kind that it neither restores nor commits keeps its entries, so that a
later comparison is one with what was written last; and processing a kind concerns no other entry. -/
theorem Run.footprint (run : Run p trigger t (.ended epoch)) :
    Footprint t epoch ∧
    (∀ past rest start w kind old, t = past ++ rest → Follows start past w →
      start.cache.Distinct → epoch.Spares kind → start.versions.get kind = some old →
      ∀ target : FetchTarget, target.kind = kind → start.Keeps w (target.key old)) ∧
    (∀ start w w' kind old, start.Sound → Spared p kind start w → Follows w t w' →
      start.versions.get kind = some old → ∀ r ∈ epoch.kinds, r.kind = kind →
      ∀ x ∈ r.targets, ∀ c, x.comparison = some c →
        Compared p start w t x.target old r.newVersion c) ∧
    ∀ fetched r h rest, (processKind p fetched r).Path h rest → ∀ e ∈ h, ∀ w : World,
      w.KeepsOthers r.kind (w.after e) := by
  refine ⟨run.footprint_of_calls, ?_, ?_, ?_⟩
  · rintro past rest start w kind old rfl follows hd hs hold target hkind
    exact run.keeps_spared hs follows hd hold hkind
  · intro start w w' kind old hsound spared follows hold r hr hkind x hx c hc
    exact run.compared follows hsound spared hold hr hkind hx hc
  · intro fetched r h rest hpath e he w
    obtain ⟨_, hasks⟩ := Path.asks_of_mem hpath he
    exact keepsOthers_of_concerns (asks_processKind_concerns hasks) w

/-! ## Epochs for a title that is gone -/

/-- A localization with one title. -/
def titled : Json := .object [("TITLE", .string "Commander")]

/-- A localization with a title is cached, and its new version comes without the title. -/
def Conduct.titleGone : Conduct :=
  (Conduct.smooth ⟨⟨"1"⟩, ⟨"2"⟩⟩ ⟨some ⟨"1"⟩, some ⟨"1"⟩⟩ (.object []) fun _ => false).holding
    fun _ => some titled

/-- After an epoch that has committed the localization with the title there may be one in which nothing
can be written, and then one in which everything can. -/
theorem Conduct.exists_follows_titleGone :
    ∃ start w w' : World, start.Sound ∧ start.versions = ⟨some ⟨"1"⟩, some ⟨"1"⟩⟩ ∧
      Follows start ((Conduct.titleGone.slow Call.isWrite).play .fullOnly .manual false).history w ∧
      Follows w (Conduct.titleGone.play .fullOnly .manual false).history w' := by
  let before := (Conduct.smooth ⟨⟨"1"⟩, ⟨"1"⟩⟩ .cold titled fun _ => false).play .fullOnly .manual false
  let first := (Conduct.titleGone.slow Call.isWrite).play .fullOnly .manual false
  let second := Conduct.titleGone.play .fullOnly .manual false
  have hworlds : ((World.cold 0).follow? before.history).any (fun start =>
      start.versions = ⟨some ⟨"1"⟩, some ⟨"1"⟩⟩ &&
        ((start.follow? first.history).bind fun w => w.follow? second.history).isSome) = true := by
    decide +kernel
  obtain ⟨start, hstart, hworlds⟩ := (Option.any_eq_true _ _).1 hworlds
  rw [Bool.and_eq_true, decide_eq_true_eq, Option.isSome_iff_exists] at hworlds
  obtain ⟨hversions, w', hworlds⟩ := hworlds
  obtain ⟨w, hfirst, hsecond⟩ := Option.bind_eq_some_iff.1 hworlds
  exact ⟨start, w, w', (World.follows_of_start hstart).sound (World.sound_cold 0), hversions,
    World.follows_of_start hfirst, World.follows_of_start hsecond⟩

/-- The new version without the title cannot be written at first. The entry with the title stays, and the
next epoch, which reads it in time, compares with it: it tells that the title is gone. -/
theorem Run.footprint_unwritten :
    let key := FetchTarget.localization.key ⟨"1"⟩
    ∃ start t epoch w t' epoch' w', start.Sound ∧ start.versions.get .localization = some ⟨"1"⟩ ∧
      Run .fullOnly .manual t (.ended epoch) ∧ Follows start t w ∧ Footprint t epoch ∧
      epoch.Spares .localization ∧ start.Keeps w key ∧
      Run .fullOnly .manual t' (.ended epoch') ∧ Follows w t' w' ∧ Brought t' (.read key) (some titled) ∧
      (∃ r ∈ epoch'.kinds, r.kind = .localization ∧ r.newVersion = ⟨"2"⟩ ∧ ∃ x ∈ r.targets, ∃ later,
        start.visible later key = some titled ∧
          x.comparison = some (compare .localization (start.visible later key) (.object []))) ∧
      epoch'.changes.removed.toList = [⟨"localization", "TITLE"⟩] := by
  intro key
  obtain ⟨start, w, w', hsound, hversions, follows, follows'⟩ := Conduct.exists_follows_titleGone
  let first := (Conduct.titleGone.slow Call.isWrite).play .fullOnly .manual false
  let second := Conduct.titleGone.play .fullOnly .manual false
  have run : Run .fullOnly .manual first.history (.ended first.result) := Conduct.play_run false
  have run' : Run .fullOnly .manual second.history (.ended second.result) := Conduct.play_run false
  have hconforms : ∀ m ∈ second.history, Conduct.titleGone.Conforms m :=
    Conduct.play_conforms fun _ => rfl
  have hspares : first.result.Spares .localization := by
    unfold Epoch.Spares
    decide +kernel
  have hremoved : second.result.changes.removed.toList = [⟨"localization", "TITLE"⟩] := by
    decide +kernel
  have hreported : (second.result.kinds.any fun r => r.kind = .localization && r.newVersion = ⟨"2"⟩ &&
      r.targets.any fun x => x.target = .localization && x.comparison.isSome) = true := by
    decide +kernel
  simp only [List.any_eq_true, Bool.and_eq_true, decide_eq_true_eq, Option.isSome_iff_exists] at hreported
  obtain ⟨r, hr, ⟨hkind, hnew⟩, x, hx, htarget, c, hc⟩ := hreported
  have hold : start.versions.get .localization = some ⟨"1"⟩ := by
    rw [hversions]
    rfl
  -- The first epoch spares the localization.
  obtain ⟨hfootprint, hkeeps, -, -⟩ := Run.footprint run
  have hkept : start.Keeps w key := hkeeps _ [] start w _ _ (List.append_nil _).symm follows
    hsound.distinct hspares hold .localization rfl
  have hspared : Spared .fullOnly .localization start w := Spared.start.epoch run follows hspares
  -- What the second one has compared with is what it has read.
  obtain ⟨-, -, hcompared, -⟩ := Run.footprint run'
  have hcompared := hcompared start w w' _ _ hsound hspared follows' hold r hr hkind x hx c hc
  rw [htarget, hnew] at hcompared
  obtain @⟨past, rest, answer, w₁, payload, moment, -, hfetched, hexact⟩ := hcompared
  have hmem : Moment.answered .epoch ⟨.call (.read key) SyncPolicy.fullOnly.ioTimeout, answer⟩ ∈
      second.history := moment ▸ List.mem_append_right _ List.mem_cons_self
  obtain rfl : answer = some (.ok (some titled)) := hconforms _ hmem
  obtain rfl : payload = .object [] :=
    Conduct.eq_of_conforms hconforms hfetched rfl (fun _ => rfl) fun _ => rfl
  have hread : Brought second.history (.read key) (some titled) := ⟨.epoch, _, hmem, .call _⟩
  obtain ⟨hvisible, rfl⟩ := hexact (some titled) rfl
  rw [hvisible] at hc
  exact ⟨start, _, _, w, _, _, w', hsound, hold, run, follows, hfootprint, hspares, hkept, run', follows',
    hread, ⟨r, hr, hkind, hnew, x, hx, w₁.now, hvisible.symm, hc⟩, hremoved⟩

end Engine

end ContentSync
