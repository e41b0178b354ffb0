import ContentSync.Proofs.Engine.Isolation
import Mathlib.Data.List.Flatten

/-!
# Every selected target is reported once

Results come from fetches that overlap, and are told apart by kind before they are written. On the way
no target is lost, reported twice or reported with the wrong kind.

* `SyncPolicy.targets_sublist`, `Run.selected_sublist` — targets are selected in processing order;
* `Completed.map_target` — the targets that are reported are the selected ones, in that order;
* `Epoch.processed_append_failed` — a target that is reported is processed or failed;
* `Processed.brought_of_succeeded`, `Processed.of_written` — a target succeeds when its payload is
  written;
* `Itemized` / `Run.itemized` — all of it, for every epoch that has selected something.
-/

set_option autoImplicit false

namespace ContentSync

/-! ## Processing order -/

/-- The processing order is one of increasing rank. -/
theorem FetchTarget.pairwise_all : FetchTarget.all.Pairwise fun a b => a.rank < b.rank := by decide

example : FetchTarget.all.map FetchTarget.label =
    ["FULL", "PARTIAL_1", "PARTIAL_2", "PARTIAL_3", "PARTIAL_4", "LOCALIZATION"] := by decide

/-- The targets of all kinds, one kind after another, are in processing order. -/
theorem SyncPolicy.targets_sublist (p : SyncPolicy) :
    (DataKind.all.flatMap p.targets).Sublist FetchTarget.all := by
  have hsegments : p.segmentPolicy.segments.Sublist Segment.all := by
    cases p.segmentPolicy with
    | allSegments => exact .refl _
    | fullOnly => decide
  simpa [DataKind.all, targets, FetchTarget.all] using
    (hsegments.map FetchTarget.gameData).append_right [.localization]

theorem SyncPolicy.filter_targets (p : SyncPolicy) (kind : DataKind) :
    ((DataKind.all.flatMap p.targets).filter fun target => target.kind = kind) = p.targets kind := by
  have hown : ∀ k, (p.targets k).filter (fun target => target.kind = kind) =
      if k = kind then p.targets k else [] := by
    intro k
    by_cases hk : k = kind
    · rw [if_pos hk, List.filter_eq_self]
      exact fun target ht => by simpa [hk] using kind_of_mem_targets ht
    · rw [if_neg hk, List.filter_eq_nil_iff]
      exact fun target ht => by simpa [kind_of_mem_targets ht] using hk
  cases kind <;> simp [DataKind.all, hown]

/-! ## Processed and failed targets -/

namespace Epoch

variable (e : Epoch)

theorem map_failed : e.failed.map (·.1) =
    (e.targets.filter fun x => !x.succeeded).map (·.target) := by
  rw [failed]
  induction e.targets with
  | nil => rfl
  | cons x xs ih =>
    cases hx : x.error with
    | none => simp [hx, ih, TargetReport.succeeded]
    | some f => simp [hx, ih, TargetReport.succeeded]

theorem processed_sublist : e.processed.Sublist (e.targets.map (·.target)) :=
  List.filter_sublist.map _

theorem failed_sublist : (e.failed.map (·.1)).Sublist (e.targets.map (·.target)) := by
  rw [map_failed]
  exact List.filter_sublist.map _

/-- **A target that is reported is processed or failed.** -/
theorem processed_append_failed :
    (e.processed ++ e.failed.map (·.1)).Perm (e.targets.map (·.target)) := by
  rw [map_failed, processed, ← List.map_append]
  exact (List.filter_append_perm _ _).map _

/-- **Where every target is reported once, none is both.** -/
theorem disjoint_failed (h : (e.targets.map (·.target)).Nodup) :
    e.processed.Disjoint (e.failed.map (·.1)) :=
  List.disjoint_of_nodup_append (e.processed_append_failed.nodup_iff.2 h)

theorem mem_processed {target : FetchTarget} :
    target ∈ e.processed ↔ ∃ r ∈ e.kinds, ∃ x ∈ r.targets, x.error = none ∧ x.target = target := by
  simp only [processed, targets, List.mem_map, List.mem_filter, List.mem_flatMap,
    TargetReport.succeeded, Option.isNone_iff_eq_none]
  constructor
  · rintro ⟨x, ⟨⟨r, hr, hx⟩, herror⟩, rfl⟩
    exact ⟨r, hr, x, hx, herror, rfl⟩
  · rintro ⟨r, hr, x, hx, herror, rfl⟩
    exact ⟨x, ⟨⟨r, hr, hx⟩, herror⟩, rfl⟩

end Epoch

namespace Engine

open Program

variable {p : SyncPolicy} {trigger : Trigger} {t : List Moment} {epoch : Epoch} {m : Metadata}
  {stored : StoredVersions} {sels : List Selection} {results : List Fetched} {sel : Selection}
  {report : KindReport} {h k : List Exchange} {jobs : List Job}

/-! ## Order -/

theorem map_jobs (sels : List Selection) :
    (sels.flatMap Selection.jobs).map (·.1) = sels.flatMap (·.targets) := by
  rw [List.map_flatMap]
  simp [Selection.jobs, Function.comp_def]

/-- Targets are selected in processing order. -/
theorem sublist_of_ends_selectKinds (hr : (selectKinds p m stored DataKind.all).Ends k sels) :
    ((sels.flatMap Selection.jobs).map (·.1)).Sublist (DataKind.all.flatMap p.targets) := by
  obtain ⟨hkinds, hfaithful⟩ := ends_selectKinds (by decide) hr
  have htargets : (sels.flatMap (·.targets)).Sublist ((sels.map (·.kind)).flatMap p.targets) := by
    rw [List.flatMap_map]
    exact List.Sublist.flatMap_right _ fun sel hsel => (hfaithful sel hsel).sublist
  rw [map_jobs]
  exact htargets.trans (hkinds.flatMap _)

/-- What an epoch that is over has selected, it has selected in processing order. -/
theorem Run.selected_sublist (run : Run p trigger t (.ended epoch)) :
    ((selections t).flatten.map (·.1)).Sublist (DataKind.all.flatMap p.targets) := by
  obtain @⟨_, _, _, _, _, _, _, -, -, aftermath, -⟩ := run.passage
  cases aftermath with
  | failed _ unselected | idle _ unselected =>
    rw [unselected]
    exact List.nil_sublist _
  | written surveyed _ selected =>
    rw [selected, List.flatten_singleton]
    exact sublist_of_ends_selectKinds surveyed

theorem Run.kinds_sublist (run : Run p trigger t (.ended epoch)) :
    (epoch.kinds.map (·.kind)).Sublist DataKind.all := by
  obtain @⟨_, _, _, _, _, _, _, -, -, aftermath, -⟩ := run.passage
  cases aftermath with
  | failed f => cases f <;> exact List.nil_sublist _
  | idle => exact List.nil_sublist _
  | written surveyed _ _ _ processed =>
    have hkinds := kinds_of_ends_processKinds processed
    rw [List.map_map] at hkinds
    exact hkinds ▸ (ends_selectKinds (by decide) surveyed).1

/-- An epoch that has selected something has completed it. -/
theorem Run.completed_of_selected (run : Run p trigger t (.ended epoch)) (hs : selections t ≠ []) :
    ∃ m stored sels results, Settled p t m stored sels ∧ Completed p t epoch sels results := by
  cases run.closed with
  | failed kinds_eq =>
    obtain @⟨_, _, _, _, _, _, _, -, -, aftermath, -⟩ := run.passage
    cases aftermath with
    | failed _ unselected | idle _ unselected => exact absurd unselected hs
    | written _ ne_nil _ _ processed =>
      have hkinds := kinds_of_ends_processKinds processed
      obtain rfl := kinds_eq
      exact absurd (by simpa using hkinds.symm) ne_nil
  | idle _ _ _ unselected => exact absurd unselected hs
  | completed settled completed => exact ⟨_, _, _, _, settled, completed⟩

/-- The targets of a report are those that were selected for its kind. -/
theorem Processed.map_target (hp : Processed p t results sel report k) :
    report.targets.map (·.target) =
      (results.map (·.target)).filter fun target => target.kind = report.kind := by
  obtain ⟨hkind, -, -, k', -, hcourses⟩ := report_of_ends_processKind hp.ends
  rw [hcourses.map_target, List.filter_map, hkind]
  rfl

/-- Targets that are told apart by kind, one kind after another, are in the order in which they were
selected. -/
theorem flatMap_filter_kind (hnodup : (sels.map (·.kind)).Nodup)
    (hsels : ∀ sel ∈ sels, ∀ target ∈ sel.targets, target.kind = sel.kind) :
    (sels.map (·.kind)).flatMap (fun kind =>
      (sels.flatMap (·.targets)).filter fun target => target.kind = kind) =
    sels.flatMap (·.targets) := by
  induction sels with
  | nil => rfl
  | cons sel sels ih =>
    obtain ⟨hnot, hnodup⟩ : sel.kind ∉ sels.map (·.kind) ∧ (sels.map (·.kind)).Nodup :=
      List.nodup_cons.1 hnodup
    have hrest := ih hnodup fun s hs => hsels s (List.mem_cons_of_mem _ hs)
    have hown : sel.targets.filter (fun target => target.kind = sel.kind) = sel.targets :=
      List.filter_eq_self.2 fun target ht => by simpa using hsels sel List.mem_cons_self target ht
    have hothers : (sels.flatMap (·.targets)).filter (fun target => target.kind = sel.kind) = [] := by
      refine List.filter_eq_nil_iff.2 fun target ht heq => hnot ?_
      obtain ⟨s, hs, ht⟩ := List.mem_flatMap.1 ht
      rw [← of_decide_eq_true heq, hsels s (List.mem_cons_of_mem _ hs) target ht]
      exact List.mem_map_of_mem hs
    have hnone : ∀ kind ∈ sels.map (·.kind),
        sel.targets.filter (fun target => target.kind = kind) = [] := by
      refine fun kind hkind => List.filter_eq_nil_iff.2 fun target ht heq => hnot ?_
      rwa [← hsels sel List.mem_cons_self target ht, of_decide_eq_true heq]
    simp only [List.map_cons, List.flatMap_cons, List.filter_append, hown, hothers,
      List.append_nil]
    rw [List.flatMap_congr fun kind hkind => by rw [hnone kind hkind, List.nil_append], hrest]

theorem Settled.kind_of_mem (hs : Settled p t m stored sels) :
    ∀ sel ∈ sels, ∀ target ∈ sel.targets, target.kind = sel.kind := by
  intro sel hsel target ht
  obtain ⟨-, -, -, hmem⟩ := hs.selected sel hsel
  exact SyncPolicy.kind_of_mem_targets ((hmem target).1 ht).1

/-- A kind is selected when there is a job for it. -/
theorem Settled.kind_mem_iff (hs : Settled p t m stored sels) {kind : DataKind} :
    kind ∈ sels.map (·.kind) ↔ ∃ job ∈ sels.flatMap Selection.jobs, job.1.kind = kind := by
  rw [List.mem_map]
  constructor
  · rintro ⟨sel, hsel, rfl⟩
    obtain ⟨-, -, hne, -⟩ := hs.selected sel hsel
    obtain ⟨target, ht⟩ := List.exists_mem_of_ne_nil _ hne
    exact ⟨(target, sel.advertised), List.mem_flatMap.2 ⟨sel, hsel, List.mem_map_of_mem ht⟩,
      hs.kind_of_mem sel hsel _ ht⟩
  · rintro ⟨⟨target, v⟩, hjob, rfl⟩
    obtain ⟨sel, hsel, hjob⟩ := List.mem_flatMap.1 hjob
    obtain ⟨target', ht, heq⟩ := List.mem_map.1 hjob
    cases heq
    exact ⟨sel, hsel, (hs.kind_of_mem sel hsel _ ht).symm⟩

/-- **The jobs of an epoch are the targets that are due**, for the advertised versions. -/
theorem Settled.mem_jobs_iff_due (hs : Settled p t m stored sels) {target : FetchTarget}
    {v : Version} : (target, v) ∈ sels.flatMap Selection.jobs ↔
      v = m.latest target.kind ∧ Due p t stored target.kind v target := by
  by_cases hkind : target.kind ∈ sels.map (·.kind)
  · obtain ⟨sel, hsel, heq⟩ := List.mem_map.1 hkind
    obtain ⟨-, hadvertised, -, hmem⟩ := hs.selected sel hsel
    rw [hs.mem_jobs_iff hsel heq.symm, hmem, ← heq, ← hadvertised]
    exact and_congr_right fun hv => by rw [hv]
  · obtain ⟨hsame, habsent⟩ := hs.intact _ hkind
    refine iff_of_false (fun hjob => hkind (hs.kind_mem_iff.2 ⟨_, hjob, rfl⟩)) ?_
    rintro ⟨rfl, ht, hdue⟩
    exact habsent target ht (hdue hsame)

/-- Every report tells of the targets that were selected for its kind. -/
theorem Completed.map_target_of_mem (hc : Completed p t epoch sels results) {r : KindReport}
    (hr : r ∈ epoch.kinds) : r.targets.map (·.target) =
      (sels.flatMap (·.targets)).filter fun target => target.kind = r.kind := by
  obtain ⟨sel, hsel, k, hp⟩ := hc.origins r hr
  rw [hp.map_target, hc.fetched.map_target, map_jobs]

theorem Run.map_target_of_mem (run : Run p trigger t (.ended epoch)) {r : KindReport}
    (hr : r ∈ epoch.kinds) : r.targets.map (·.target) =
      ((selections t).flatten.map (·.1)).filter fun target => target.kind = r.kind := by
  obtain ⟨m, stored, sels, results, sel, k, -, hc, -, -⟩ := run.processed_of_report hr
  rw [hc.map_target_of_mem hr, hc.selections_eq, List.flatten_singleton, map_jobs]

/-- **The targets that are reported are the selected ones, in the same order.** -/
theorem Completed.map_target (hc : Completed p t epoch sels results)
    (hs : Settled p t m stored sels) :
    epoch.targets.map (·.target) = sels.flatMap (·.targets) :=
  calc epoch.targets.map (·.target)
      = epoch.kinds.flatMap fun r => r.targets.map (·.target) := List.map_flatMap
    _ = epoch.kinds.flatMap fun r =>
          (sels.flatMap (·.targets)).filter fun target => target.kind = r.kind :=
        List.flatMap_congr fun _ hr => hc.map_target_of_mem hr
    _ = (sels.map (·.kind)).flatMap fun kind =>
          (sels.flatMap (·.targets)).filter fun target => target.kind = kind := by
        rw [← hc.kinds_eq, List.flatMap_map]
    _ = sels.flatMap (·.targets) := flatMap_filter_kind hs.nodup_kinds hs.kind_of_mem

/-! ## Writes -/

/-- A target that has succeeded was fetched and its write was answered. -/
theorem Processed.brought_of_succeeded (hp : Processed p t results sel report k) {x : TargetReport}
    (hx : x ∈ report.targets) (herror : x.error = none) :
    ∃ f ∈ results, f.target = x.target ∧ f.target.kind = sel.kind ∧ ∃ payload,
      f.payload = .ok payload ∧
      Brought t (.write (x.target.key sel.advertised) payload (p.lifetime x.target.kind)) () := by
  obtain ⟨-, -, -, k', hk', hcourses⟩ := report_of_ends_processKind hp.ends
  obtain ⟨f, hf, k'', hk'', hcourse⟩ := hcourses.exists_of_mem.2 x hx
  obtain ⟨hmem, hkind⟩ := List.mem_filter.1 hf
  have hfkind : f.target.kind = sel.kind := of_decide_eq_true hkind
  cases hcourse with
  | unfetched => cases herror
  | refused => cases herror
  | unwritten => cases herror
  | @written payload l c hpayload hl =>
    refine ⟨f, hmem, rfl, hfkind, payload, hpayload, .epoch, _,
      mem_exchanges.1 (hp.part (hk' (hk'' ?_))), .call p.ioTimeout⟩
    simp [writeCall, Selection.report, KindReport.selected]

/-- Of what is exchanged for a target, only its own call writes an entry. -/
theorem write_of_mem {r : KindReport} {target : FetchTarget} {new payload : Json} {l : List Exchange}
    {c : Option Comparison} {a : Option (Except Failure Unit)} {key : CacheKey}
    {lifetime limit : Duration} (hl : (comparison p r target new).Ends l c)
    (he : ⟨.call (.write key payload lifetime) limit, some (.ok ())⟩ ∈
      cancelAnswer false :: (l ++ [⟨.call (writeCall p r target new) p.ioTimeout, a⟩])) :
    key = target.key r.newVersion ∧ payload = new ∧ lifetime = p.lifetime target.kind ∧
      a = some (.ok ()) := by
  have hother : (⟨.call (.write key payload lifetime) limit, some (.ok ())⟩ : Exchange) ∉ l := by
    intro hmem
    obtain ⟨_, hasks⟩ := Path.asks_of_mem hl hmem
    obtain heq | ⟨_, -, heq⟩ := asks_comparison hasks <;> cases heq
  obtain he | he := List.mem_cons.1 he
  · cases he
  obtain he | he := List.mem_append.1 he
  · exact absurd he hother
  cases List.mem_singleton.1 he
  exact ⟨rfl, rfl, rfl, rfl⟩

/-- The target whose write was answered has succeeded. -/
theorem TargetCourse.of_written {r : KindReport} {f : Fetched} {x : TargetReport}
    (hc : TargetCourse p r f h x) {key : CacheKey} {payload : Json} {lifetime limit : Duration}
    (he : ⟨.call (.write key payload lifetime) limit, some (.ok ())⟩ ∈ h) :
    x.target = f.target ∧ x.error = none ∧ f.payload = .ok payload ∧
      key = f.target.key r.newVersion ∧ lifetime = p.lifetime f.target.kind := by
  cases hc with
  | unfetched => cases he
  | refused => cases List.mem_singleton.1 he
  | written hf hl =>
    obtain ⟨rfl, rfl, rfl, -⟩ := write_of_mem hl he
    exact ⟨rfl, rfl, hf, rfl, rfl⟩
  | unwritten hf hl ha =>
    obtain ⟨-, -, -, rfl⟩ := write_of_mem hl he
    cases ha

/-- No comparison and no commit writes an entry. -/
theorem Processed.of_written (hp : Processed p t results sel report k) {key : CacheKey}
    {payload : Json} {lifetime limit : Duration}
    (he : ⟨.call (.write key payload lifetime) limit, some (.ok ())⟩ ∈ k) :
    ∃ x ∈ report.targets, x.error = none ∧ key = x.target.key sel.advertised := by
  obtain ⟨k₁, k₂, reports, rfl, hwrites, hcommit⟩ := ends_processKind hp.ends
  have htargets : report.targets = reports := by
    obtain ⟨-, -, rfl⟩ | ⟨-, -, rfl⟩ | ⟨_, _, -, -, -, rfl⟩ | ⟨_, -, -, -, rfl⟩ :=
      ends_commitKind hcommit <;> rfl
  rw [htargets]
  obtain he | he := List.mem_append.1 he
  · obtain ⟨f, -, x, hx, l, hl, hcourse⟩ := (ends_writeTargets hwrites).exists_of_mem.1 _ he
    obtain ⟨htarget, herror, -, rfl, -⟩ := hcourse.of_written hl
    exact ⟨x, hx, herror, by rw [htarget]; rfl⟩
  · obtain ⟨_, hasks⟩ := Path.asks_of_mem hcommit he
    obtain ⟨-, ⟨-, heq⟩ | ⟨-, heq⟩ | ⟨_, -, hasks⟩⟩ := asks_commitKind hasks
    · cases heq
    · cases heq
    · obtain ⟨_, -, -, _, -, heq⟩ := asks_expirePrevious hasks
      cases heq

/-- A target has been fetched for a version, and what was fetched was written for it. -/
theorem Run.written_of_processed (run : Run p trigger t (.ended epoch)) {target : FetchTarget}
    (ht : target ∈ epoch.processed) :
    ∃ jobs v, selections t = [jobs] ∧ (target, v) ∈ jobs ∧ Renewed p t target v := by
  obtain ⟨r, hr, x, hx, herror, rfl⟩ := epoch.mem_processed.1 ht
  obtain ⟨m, stored, sels, results, sel, k, hs, hc, hsel, hp⟩ := run.processed_of_report hr
  obtain ⟨f, hf, htarget, hkind, payload, hpayload, hwrite⟩ := hp.brought_of_succeeded hx herror
  obtain ⟨hxkind, jobs, hjobs, hmem⟩ := hc.selected_of_mem hs hsel hp hx
  rw [hp.report_eq.2.2] at hmem
  refine ⟨jobs, sel.advertised, hjobs, hmem, payload, ?_, hwrite⟩
  rw [← htarget]
  exact hc.brought_of_result hs hsel hf hkind hpayload

/-- **A target of which an entry was written is processed.** -/
theorem Run.processed_of_written (run : Run p trigger t (.ended epoch)) {target : FetchTarget}
    {v : Version} {payload : Json} {lifetime : Duration}
    (hb : Brought t (.write (target.key v) payload lifetime) ()) : target ∈ epoch.processed := by
  obtain ⟨e, he, hb, limit, hrequest⟩ := run.exchange_of_brought hb rfl
  obtain ⟨m, stored, sels, results, sel, report, k, -, -, -, hr, hp, hk⟩ :=
    run.processed_of_mem he hb.call? rfl
  cases hb with
  | wait | attempt => cases hrequest
  | call limit =>
    obtain ⟨x, hx, herror, hkey⟩ := hp.of_written hk
    obtain ⟨rfl, -⟩ := FetchTarget.key_inj hkey
    exact epoch.mem_processed.2 ⟨report, hr, x, hx, herror, rfl⟩

/-! ## The whole epoch -/

/-- The reports of an epoch account for what it has selected. -/
structure Itemized (p : SyncPolicy) (t : List Moment) (jobs : List Job) (epoch : Epoch) : Prop where
  /-- There is one selection, and it consists of the targets that are due. -/
  selections_eq : selections t = [jobs]
  due : ∃ m stored, Brought t .metadata m ∧ Brought t .versions stored ∧ ∀ target v,
    (target, v) ∈ jobs ↔ v = m.latest target.kind ∧ Due p t stored target.kind v target
  /-- Targets are selected in processing order. -/
  sublist_all : (jobs.map (·.1)).Sublist FetchTarget.all
  /-- Each of them has one report, in the same order. -/
  map_target : epoch.targets.map (·.target) = jobs.map (·.1)
  count_eq : ∀ job ∈ jobs, (epoch.targets.map (·.target)).count job.1 = 1
  /-- It is in the report of its own kind. -/
  kinds_sublist : (epoch.kinds.map (·.kind)).Sublist DataKind.all
  kind_eq : ∀ r ∈ epoch.kinds,
    r.targets.map (·.target) = (jobs.map (·.1)).filter fun target => target.kind = r.kind
  /-- It is processed or failed, and not both. -/
  processed_sublist : epoch.processed.Sublist (jobs.map (·.1))
  failed_sublist : (epoch.failed.map (·.1)).Sublist (jobs.map (·.1))
  perm : (epoch.processed ++ epoch.failed.map (·.1)).Perm (jobs.map (·.1))
  disjoint : epoch.processed.Disjoint (epoch.failed.map (·.1))
  /-- It is processed when the payload that was fetched for it was written. -/
  mem_processed : ∀ target, target ∈ epoch.processed ↔ ∃ v, (target, v) ∈ jobs ∧ Renewed p t target v
  /-- No other entry is written, for any version. -/
  processed_of_written : ∀ target v payload lifetime,
    Brought t (.write (target.key v) payload lifetime) () → target ∈ epoch.processed

/-- **Every selected target is reported once**, with its own kind and in processing order, and it is
processed exactly when its payload was written, whatever has failed and whenever the epoch was
cancelled. -/
theorem Run.itemized (run : Run p trigger t (.ended epoch)) (hs : jobs ∈ selections t) :
    Itemized p t jobs epoch := by
  obtain ⟨m, stored, sels, results, settled, completed⟩ :=
    run.completed_of_selected (List.ne_nil_of_mem hs)
  have hselections := completed.selections_eq
  obtain rfl : jobs = sels.flatMap Selection.jobs := by simpa [hselections] using hs
  have hsublist := run.selected_sublist
  rw [hselections, List.flatten_singleton] at hsublist
  have hnodup := run.nodup_selected hselections
  have htargets : epoch.targets.map (·.target) = (sels.flatMap Selection.jobs).map (·.1) := by
    rw [completed.map_target settled, map_jobs]
  exact
    { selections_eq := hselections
      due := ⟨m, stored, (settled.advertised m).2 rfl, (settled.committed stored).2 rfl,
        fun target v => settled.mem_jobs_iff_due⟩
      sublist_all := hsublist.trans p.targets_sublist
      map_target := htargets
      count_eq := by
        intro job hjob
        rw [htargets]
        exact List.count_eq_one_of_mem hnodup (List.mem_map_of_mem hjob)
      kinds_sublist := run.kinds_sublist
      kind_eq := by
        intro r hr
        rw [completed.map_target_of_mem hr, map_jobs]
      processed_sublist := htargets ▸ epoch.processed_sublist
      failed_sublist := htargets ▸ epoch.failed_sublist
      perm := htargets ▸ epoch.processed_append_failed
      disjoint := epoch.disjoint_failed (htargets ▸ hnodup)
      mem_processed := by
        intro target
        constructor
        · intro ht
          obtain ⟨jobs, v, hjobs, hmem, hrenewed⟩ := run.written_of_processed ht
          obtain rfl : sels.flatMap Selection.jobs = jobs :=
            (List.cons.inj (hselections.symm.trans hjobs)).1
          exact ⟨v, hmem, hrenewed⟩
        · rintro ⟨v, -, payload, -, hwrite⟩
          exact run.processed_of_written hwrite
      processed_of_written := fun target v payload lifetime hb => run.processed_of_written hb }

/-- Both versions are new, and of the six payloads one cannot be written. -/
def Conduct.oneUnwritten : Conduct :=
  (Conduct.smooth ⟨⟨"2"⟩, ⟨"2"⟩⟩ ⟨some ⟨"1"⟩, some ⟨"1"⟩⟩ (.object []) fun _ => false).slow fun
    | .write key _ _ => key = (FetchTarget.gameData .units).key ⟨"2"⟩
    | _ => false

/-- One of six targets cannot be written. -/
theorem Run.itemized_unwritten :
    ∃ t jobs epoch, Run .default .manual t (.ended epoch) ∧ jobs ∈ selections t ∧
      Itemized .default t jobs epoch ∧ epoch.failed.map (·.1) = [.gameData .units] := by
  let played := Conduct.oneUnwritten.play .default .manual false
  have run : Run .default .manual played.history (.ended played.result) := Conduct.play_run false
  have hselected : selections played.history = [FetchTarget.all.map (·, ⟨"2"⟩)] := by decide +kernel
  have hs : FetchTarget.all.map (·, ⟨"2"⟩) ∈ selections played.history := by simp [hselected]
  have hfailed : played.result.failed.map (·.1) = [.gameData .units] := by decide +kernel
  exact ⟨_, _, _, run, hs, Run.itemized run hs, hfailed⟩

end Engine

end ContentSync
