import ContentSync.Proofs.Engine.WritingPath

/-!
# Paths to the reports of kinds

* `ends_commitKind` — how a commit is reported;
* `report_of_ends_processKind` — the report of a kind keeps what was selected;
* `committed_of_ends_processKind` — it tells whether the kind was committed;
* `written_of_ends_processKind` — every target of a committed kind was written;
* `exists_of_ends_processKinds` — every kind has its report, and every exchange its kind;
* `fullyWritten_of_commit_mem` — a kind that was committed has been written in full.
-/

set_option autoImplicit false

namespace ContentSync

namespace Engine

open Program

variable {p : SyncPolicy} {r : KindReport} {f : Fetched} {h : List Exchange} {q : Request}

/-- How a commit is reported. -/
theorem ends_commitKind {report : KindReport} (hq : (commitKind p r).Ends h report) :
    (h = [] ∧ r.fullyWritten = false ∧ report = r) ∨
      (h = [cancelAnswer true] ∧ r.fullyWritten = true ∧ report = r) ∨
      (∃ a f, h = [cancelAnswer false, ⟨.call (commitCall r) p.ioTimeout, a⟩] ∧
        r.fullyWritten = true ∧ boundedResult p "version commit" .persistence a = .error f ∧
        report = { r with commitError := some f }) ∨
      (∃ k, h = cancelAnswer false ::
          ⟨.call (commitCall r) p.ioTimeout, some (.ok ())⟩ :: k ∧
        r.fullyWritten = true ∧ (expirePrevious p r).Ends k () ∧
        report = { r with committed := true }) := by
  unfold commitKind at hq
  by_cases hfull : r.fullyWritten
  case neg =>
    simp only [hfull, Bool.not_false, if_true, ends_pure] at hq
    exact .inl ⟨hq.1, by simpa using hfull, hq.2⟩
  simp only [hfull, Bool.not_true, Bool.false_eq_true, if_false, ends_bind, ends_request] at hq
  obtain ⟨_, l, cancelled, rfl, rfl, hq⟩ := hq
  cases cancelled with
  | true =>
    simp only [if_true, ends_pure] at hq
    obtain ⟨rfl, rfl⟩ := hq
    exact .inr (.inl ⟨rfl, hfull, rfl⟩)
  | false =>
    simp only [Bool.false_eq_true, if_false, ends_bind, ends_bounded] at hq
    obtain ⟨_, _, result, rfl, ⟨a, rfl, ha⟩, hq⟩ := hq
    rcases result with f | u
    · simp only [ends_pure] at hq
      obtain ⟨rfl, rfl⟩ := hq
      exact .inr (.inr (.inl ⟨a, f, rfl, hfull, ha.symm, rfl⟩))
    · simp only [ends_bind, ends_pure] at hq
      obtain ⟨k, _, _, rfl, hk, rfl, rfl⟩ := hq
      obtain rfl := boundedResult_eq_ok_iff.1 ha.symm
      exact .inr (.inr (.inr ⟨k, by simp [cancelAnswer, commitCall], hfull, hk, rfl⟩))

theorem ends_processKind {fetched : List Fetched} {report : KindReport}
    (hq : (processKind p fetched r).Ends h report) :
    ∃ h₁ h₂ reports, h = h₁ ++ h₂ ∧
      (writeTargets p r (fetched.filter fun f => f.target.kind = r.kind)).Ends h₁ reports ∧
      (commitKind p { r with targets := reports }).Ends h₂ report := by
  simp only [processKind, ends_bind] at hq
  obtain ⟨k, l, reports, rfl, hk, hl⟩ := hq
  exact ⟨k, l, reports, rfl, hk, hl⟩

theorem ends_processKinds_cons {fetched : List Fetched} {rs : List KindReport}
    {reports : List KindReport} (hq : (processKinds p fetched (r :: rs)).Ends h reports) :
    ∃ h₁ h₂ report others, h = h₁ ++ h₂ ∧ reports = report :: others ∧
      (processKind p fetched r).Ends h₁ report ∧ (processKinds p fetched rs).Ends h₂ others := by
  simp only [processKinds, ends_bind, ends_pure] at hq
  obtain ⟨h₁, _, report, rfl, hhead, h₂, _, others, rfl, htail, rfl, rfl⟩ := hq
  exact ⟨h₁, h₂, report, others, by simp, rfl, hhead, htail⟩

/-- The report of a kind keeps what was selected. -/
theorem kind_of_ends_processKind {fetched : List Fetched} {report : KindReport}
    (hq : (processKind p fetched r).Ends h report) : report.kind = r.kind := by
  obtain ⟨_, _, reports, -, -, hq⟩ := ends_processKind hq
  obtain ⟨-, -, rfl⟩ | ⟨-, -, rfl⟩ | ⟨_, _, -, -, -, rfl⟩ | ⟨_, -, -, -, rfl⟩ :=
    ends_commitKind hq <;> rfl

theorem kinds_of_ends_processKinds {fetched : List Fetched} {rs reports : List KindReport}
    (hq : (processKinds p fetched rs).Ends h reports) :
    reports.map (·.kind) = rs.map (·.kind) := by
  induction rs generalizing h reports with
  | nil =>
    simp only [processKinds, ends_pure] at hq
    rw [hq.2]
  | cons r rs ih =>
    obtain ⟨_, _, report, others, -, rfl, hhead, htail⟩ := ends_processKinds_cons hq
    rw [List.map_cons, List.map_cons, kind_of_ends_processKind hhead, ih htail]

/-- **The report of a kind keeps what was selected**, and tells of its targets in order. -/
theorem report_of_ends_processKind {fetched : List Fetched} {report : KindReport}
    (hq : (processKind p fetched r).Ends h report) :
    report.kind = r.kind ∧ report.oldVersion = r.oldVersion ∧ report.newVersion = r.newVersion ∧
      ∃ k, k ⊆ h ∧
        TargetCourses p r (fetched.filter fun f => f.target.kind = r.kind) k report.targets := by
  obtain ⟨k, l, reports, rfl, hwrites, hq⟩ := ends_processKind hq
  have hsub : k ⊆ k ++ l := List.subset_append_left ..
  obtain ⟨-, -, rfl⟩ | ⟨-, -, rfl⟩ | ⟨_, _, -, -, -, rfl⟩ | ⟨_, -, -, -, rfl⟩ :=
    ends_commitKind hq <;>
    exact ⟨rfl, rfl, rfl, k, hsub, ends_writeTargets hwrites⟩

/-- **A kind is reported as committed when its commit was answered**, and it has no other commit. -/
theorem committed_of_ends_processKind {fetched : List Fetched} {report : KindReport}
    (hq : (processKind p fetched r).Ends h report) :
    (report.committed = true → r.committed = false →
      ⟨.call (commitCall r) p.ioTimeout, some (.ok ())⟩ ∈ h) ∧
    (⟨.call (commitCall r) p.ioTimeout, some (.ok ())⟩ ∈ h → report.committed = true) := by
  obtain ⟨k, l, reports, rfl, hwrites, hq⟩ := ends_processKind hq
  have hnot : ∀ a, (⟨.call (commitCall r) p.ioTimeout, a⟩ : Exchange) ∉ k := by
    intro a hmem
    obtain ⟨_, hasks⟩ := Path.asks_of_mem hwrites hmem
    have hcalls := (asks_writeTargets_concerns hasks).2 _ _ rfl
    simp [commitCall] at hcalls
  have hlast : ⟨.call (commitCall r) p.ioTimeout, some (.ok ())⟩ ∈ k ++ l ↔
      (⟨.call (commitCall r) p.ioTimeout, some (.ok ())⟩ : Exchange) ∈ l :=
    List.mem_append.trans (or_iff_right (hnot _))
  rw [hlast]
  obtain ⟨rfl, -, rfl⟩ | ⟨rfl, -, rfl⟩ | ⟨a, f, rfl, -, ha, rfl⟩ | ⟨_, rfl, -, -, rfl⟩ :=
    ends_commitKind hq
  · exact ⟨fun ht hf => absurd (hf.symm.trans ht) Bool.false_ne_true,
      fun hm => absurd hm List.not_mem_nil⟩
  · exact ⟨fun ht hf => absurd (hf.symm.trans ht) Bool.false_ne_true,
      fun hm => by simp [cancelAnswer] at hm⟩
  · refine ⟨fun ht hf => absurd (hf.symm.trans ht) Bool.false_ne_true, fun hm => ?_⟩
    obtain heq | hm := List.mem_cons.1 hm
    · cases heq
    · obtain rfl := eq_of_heq (Exchange.mk.inj (List.mem_singleton.1 hm)).2
      cases ha
  · exact ⟨fun _ _ => by simp [commitCall], fun _ => rfl⟩

/-- **Of a kind that was committed, every target was fetched and written.** -/
theorem written_of_ends_processKind {fetched : List Fetched} {report : KindReport}
    (hq : (processKind p fetched r).Ends h report) (hc : report.committed = true)
    (hr : r.committed = false) {f : Fetched} (hf : f ∈ fetched) (hkind : f.target.kind = r.kind) :
    ∃ payload, f.payload = .ok payload ∧
      ⟨.call (writeCall p r f.target payload) p.ioTimeout, some (.ok ())⟩ ∈ h := by
  obtain ⟨k, l, reports, rfl, hwrites, hq⟩ := ends_processKind hq
  obtain ⟨-, -, rfl⟩ | ⟨-, -, rfl⟩ | ⟨_, _, -, -, -, rfl⟩ | ⟨_, -, hfull, -, rfl⟩ :=
    ends_commitKind hq
  · exact absurd (hr.symm.trans hc) Bool.false_ne_true
  · exact absurd (hr.symm.trans hc) Bool.false_ne_true
  · exact absurd (hr.symm.trans hc) Bool.false_ne_true
  · have hdone : ∀ report ∈ reports, report.error = none := by
      simpa [KindReport.fullyWritten, TargetReport.succeeded] using
        (Bool.and_eq_true_iff.1 hfull).2
    obtain ⟨payload, hpayload, hmem⟩ :=
      (ends_writeTargets hwrites).written_of_forall hdone f (by simp [hf, hkind])
    exact ⟨payload, hpayload, List.mem_append_left _ hmem⟩

/-- Each kind in a list has been processed, and what was exchanged was exchanged for one of them. -/
theorem exists_of_ends_processKinds {fetched : List Fetched} {rs reports : List KindReport}
    (hq : (processKinds p fetched rs).Ends h reports) :
    (∀ r ∈ rs, ∃ report ∈ reports, ∃ k, k ⊆ h ∧ (processKind p fetched r).Ends k report) ∧
      (∀ report ∈ reports, ∃ r ∈ rs, ∃ k, k ⊆ h ∧ (processKind p fetched r).Ends k report) ∧
      ∀ e ∈ h, ∃ r ∈ rs, ∃ report ∈ reports, ∃ k, k ⊆ h ∧ e ∈ k ∧
        (processKind p fetched r).Ends k report := by
  induction rs generalizing h reports with
  | nil =>
    simp only [processKinds, ends_pure] at hq
    simp [hq.1, hq.2]
  | cons r rs ih =>
    obtain ⟨h₁, h₂, report, others, rfl, rfl, hhead, htail⟩ := ends_processKinds_cons hq
    obtain ⟨hrs, hreports, hmem⟩ := ih htail
    have hfirst : h₁ ⊆ h₁ ++ h₂ := List.subset_append_left ..
    have hsecond : ∀ {k : List Exchange}, k ⊆ h₂ → k ⊆ h₁ ++ h₂ :=
      List.subset_append_of_subset_right _
    refine ⟨fun r' hr' => ?_, fun report' hr' => ?_, fun e he => ?_⟩
    · obtain rfl | hr' := List.mem_cons.1 hr'
      · exact ⟨report, List.mem_cons_self, h₁, hfirst, hhead⟩
      · obtain ⟨report', hr', k, hk, hends⟩ := hrs r' hr'
        exact ⟨report', List.mem_cons_of_mem _ hr', k, hsecond hk, hends⟩
    · obtain rfl | hr' := List.mem_cons.1 hr'
      · exact ⟨r, List.mem_cons_self, h₁, hfirst, hhead⟩
      · obtain ⟨r', hr', k, hk, hends⟩ := hreports report' hr'
        exact ⟨r', List.mem_cons_of_mem _ hr', k, hsecond hk, hends⟩
    · obtain he | he := List.mem_append.1 he
      · exact ⟨r, List.mem_cons_self, report, List.mem_cons_self, h₁, hfirst, he, hhead⟩
      · obtain ⟨r', hr', report', hreport', k, hk, he, hends⟩ := hmem e he
        exact ⟨r', List.mem_cons_of_mem _ hr', report', List.mem_cons_of_mem _ hreport', k,
          hsecond hk, he, hends⟩

/-- **A kind that was committed has been written in full.** -/
theorem fullyWritten_of_commit_mem {fetched : List Fetched} {rs reports : List KindReport}
    (hq : (processKinds p fetched rs).Ends h reports) (hnodup : (rs.map (·.kind)).Nodup)
    {e : Exchange} (he : e ∈ h) {k : DataKind} {v : Version} {limit : Duration}
    (hcommit : e.request = .call (.commit k v) limit) {report : KindReport}
    (hr : report ∈ reports) (hk : report.kind = k) : report.fullyWritten = true := by
  induction rs generalizing h reports with
  | nil =>
    simp only [processKinds, ends_pure] at hq
    rw [hq.1] at he
    cases he
  | cons r rs ih =>
    obtain ⟨hnot, hnodup⟩ := List.nodup_cons.1 hnodup
    obtain ⟨h₁, h₂, report', others, rfl, rfl, hhead, htail⟩ := ends_processKinds_cons hq
    obtain he | he := List.mem_append.1 he
    · obtain ⟨_, hasks⟩ := Path.asks_of_mem hhead he
      have hconcerns := asks_processKind_concerns hasks
      rw [hcommit] at hconcerns
      obtain rfl | hr := List.mem_cons.1 hr
      · obtain ⟨k₁, k₂, targets, rfl, hwrites, hends⟩ := ends_processKind hhead
        obtain he | he := List.mem_append.1 he
        · obtain ⟨_, hasks⟩ := Path.asks_of_mem hwrites he
          have hcalls := (asks_writeTargets_concerns hasks).2 _ _ hcommit
          simp at hcalls
        · obtain ⟨rfl, -, -⟩ | ⟨rfl, -, -⟩ | ⟨_, _, -, hfull, -, rfl⟩ | ⟨_, -, hfull, -, rfl⟩ :=
            ends_commitKind hends
          · cases he
          · rw [List.mem_singleton] at he
            subst he
            cases hcommit
          · exact hfull
          · exact hfull
      · have hmem := List.mem_map_of_mem (f := (·.kind)) hr
        rw [kinds_of_ends_processKinds htail, hk, show k = r.kind from hconcerns] at hmem
        exact absurd hmem hnot
    · obtain rfl | hr := List.mem_cons.1 hr
      · obtain ⟨_, hasks⟩ := Path.asks_of_mem htail he
        obtain ⟨r', hr', hconcerns⟩ := asks_processKinds_concerns hasks
        rw [hcommit] at hconcerns
        have heq : r'.kind = r.kind := by
          rw [← kind_of_ends_processKind hhead, hk]
          exact hconcerns.symm
        exact absurd (List.mem_map.2 ⟨r', hr', heq⟩) hnot
      · exact ih htail hnodup he hr

end Engine

end ContentSync
