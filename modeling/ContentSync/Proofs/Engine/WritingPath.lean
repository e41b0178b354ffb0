import ContentSync.Engine.Writing
import ContentSync.Proofs.Engine.RetryPath

/-!
# Paths through writing

* `asks_writeTarget` / `ends_writeTarget` — a payload is written after a look at whether the epoch is
  cancelled and a comparison with the payload of the previous version;
* `asks_commitKind` — a kind is committed when every target of it was written, and only then are
  entries of the previous version removed;
* `asks_writeTargets`, `asks_processKinds` — what is asked for in a list of targets or kinds is
  asked for in one of them, after all of those before it;
* `Request.Concerns` / `asks_processKind_concerns` — what is asked for while a kind is processed
  concerns that kind;
* `asks_writing`, `asks_concluding` — the last parts of an epoch.
-/

set_option autoImplicit false

namespace ContentSync

namespace Request

/-- The requests with which an epoch ends. -/
def isOfConclusion : Request → Bool
  | clock | publish .failed | publish .notifying | publish .idle => true
  | announce _ | remember _ => true
  | _ => false

/-- A request that can be made while a kind is processed. -/
def Concerns (k : DataKind) : Request → Prop
  | isCancelled | compute => True
  | call (.read key) _ | call (.write key _ _) _ | call (.invalidate key) _ =>
    ∃ t : FetchTarget, ∃ v, t.kind = k ∧ key = t.key v
  | call (.commit l _) _ => l = k
  | _ => False

end Request

namespace Engine

open Program

variable {p : SyncPolicy} {r : KindReport} {f : Fetched} {h : List Exchange} {q : Request}

/-- The call that writes a payload. -/
def writeCall (p : SyncPolicy) (r : KindReport) (t : FetchTarget) (payload : Json) : Call :=
  .write (t.key r.newVersion) payload (p.lifetime t.kind)

/-- The answer to whether the epoch is cancelled. -/
def cancelAnswer (cancelled : Bool) : Exchange := ⟨.isCancelled, cancelled⟩

/-! ## One target -/

/-- A comparison reads the previous version of its own target. -/
theorem asks_comparison {t : FetchTarget} {new : Json} (hq : (comparison p r t new).Asks h q) :
    q = .compute ∨
      ∃ old, r.oldVersion = some old ∧ q = .call (.read (t.key old)) p.ioTimeout := by
  unfold comparison at hq
  split at hq
  · simp at hq
  rw [asks_map] at hq
  unfold compareTarget at hq
  split at hq
  · simp only [computeChanges, asks_bind, asks_request, asks_pure, and_false, exists_false,
      or_false] at hq
    exact .inl hq.2
  · rename_i old hold
    simp only [asks_bind, asks_bounded] at hq
    obtain ⟨-, rfl⟩ | ⟨_, _, result, rfl, -, hq⟩ := hq
    · exact .inr ⟨old, hold, rfl⟩
    · cases result with
      | error f => simp at hq
      | ok baseline =>
        simp only [computeChanges, asks_bind, asks_request, asks_pure, and_false, exists_false,
          or_false] at hq
        exact .inl hq.2

/-- A comparison is made with nothing, or with what the cache gives for the version before. -/
theorem ends_comparison {t : FetchTarget} {new : Json} {c : Comparison}
    (hq : (comparison p r t new).Ends h (some c)) :
    r.restored = false ∧ ((r.oldVersion = none ∧ c = compare t none new) ∨
      ∃ old answer, r.oldVersion = some old ∧
        ⟨.call (.read (t.key old)) p.ioTimeout, answer⟩ ∈ h ∧
        ∀ baseline, answer = some (.ok baseline) → c = compare t baseline new) := by
  unfold comparison at hq
  split at hq
  · simp at hq
  rename_i hrestored
  obtain ⟨_, hq, heq⟩ := ends_map.1 hq
  obtain rfl := Option.some.inj heq
  refine ⟨by simpa using hrestored, ?_⟩
  unfold compareTarget at hq
  split at hq
  · rename_i hold
    simp only [computeChanges, ends_bind, ends_request, ends_pure] at hq
    obtain ⟨_, _, _, -, -, -, rfl⟩ := hq
    exact .inl ⟨hold, rfl⟩
  · rename_i old hold
    simp only [ends_bind, ends_bounded] at hq
    obtain ⟨_, _, _, rfl, ⟨answer, rfl, rfl⟩, hq⟩ := hq
    refine .inr ⟨old, answer, hold, by simp, fun baseline hb => ?_⟩
    subst hb
    simp only [boundedResult, computeChanges, ends_bind, ends_request, ends_pure] at hq
    obtain ⟨_, _, _, -, -, -, rfl⟩ := hq
    rfl

theorem asks_writeTarget (hq : (writeTarget p r f).Asks h q) :
    ∃ payload, f.payload = .ok payload ∧
      ((h = [] ∧ q = .isCancelled) ∨
        (∃ k, h = cancelAnswer false :: k ∧ (comparison p r f.target payload).Asks k q) ∨
        (∃ k c, h = cancelAnswer false :: k ∧ (comparison p r f.target payload).Ends k c ∧
          q = .call (writeCall p r f.target payload) p.ioTimeout)) := by
  unfold writeTarget at hq
  split at hq
  · simp at hq
  rename_i payload hpayload
  refine ⟨payload, hpayload, ?_⟩
  simp only [asks_bind, asks_request, ends_request] at hq
  obtain ⟨rfl, rfl⟩ | ⟨_, l, cancelled, rfl, rfl, hq⟩ := hq
  · exact .inl ⟨rfl, rfl⟩
  cases cancelled with
  | true => simp at hq
  | false =>
    simp only [Bool.false_eq_true, if_false] at hq
    rw [asks_bind] at hq
    obtain hq | ⟨k, _, c, rfl, hk, hq⟩ := hq
    · exact .inr (.inl ⟨l, rfl, hq⟩)
    simp only [asks_bind, asks_bounded] at hq
    obtain ⟨rfl, rfl⟩ | ⟨_, _, written, rfl, -, hq⟩ := hq
    · exact .inr (.inr ⟨k, c, by simp [cancelAnswer], hk, rfl⟩)
    · rcases written with _ | _ <;> simp at hq

/-- How the write of a target can go: it was not fetched, it was not written any more, or the write
was made and answered. -/
inductive TargetCourse (p : SyncPolicy) (r : KindReport) (f : Fetched) :
    List Exchange → TargetReport → Prop
  | unfetched {e : Failure} (hf : f.payload = .error e) :
    TargetCourse p r f [] ⟨f.target, f.attempts, some e, none⟩
  | refused {payload : Json} (hf : f.payload = .ok payload) :
    TargetCourse p r f [cancelAnswer true] ⟨f.target, f.attempts, some .cancelled, none⟩
  | written {payload : Json} {k : List Exchange} {c : Option Comparison}
    (hf : f.payload = .ok payload) (hk : (comparison p r f.target payload).Ends k c) :
    TargetCourse p r f
      (cancelAnswer false :: (k ++
        [⟨.call (writeCall p r f.target payload) p.ioTimeout, some (.ok ())⟩]))
      ⟨f.target, f.attempts, none, c⟩
  | unwritten {payload : Json} {k : List Exchange} {c : Option Comparison}
    {a : Option (Except Failure Unit)} {e : Failure} (hf : f.payload = .ok payload)
    (hk : (comparison p r f.target payload).Ends k c)
    (ha : boundedResult p "cache write" .cacheWrite a = .error e) :
    TargetCourse p r f
      (cancelAnswer false :: (k ++ [⟨.call (writeCall p r f.target payload) p.ioTimeout, a⟩]))
      ⟨f.target, f.attempts, some e, c⟩

theorem ends_writeTarget {report : TargetReport} (hq : (writeTarget p r f).Ends h report) :
    TargetCourse p r f h report := by
  unfold writeTarget at hq
  split at hq
  · rename_i e he
    rw [ends_pure] at hq
    obtain ⟨rfl, rfl⟩ := hq
    exact .unfetched he
  rename_i payload hpayload
  simp only [ends_bind, ends_request] at hq
  obtain ⟨_, l, cancelled, rfl, rfl, hq⟩ := hq
  cases cancelled with
  | true =>
    simp only [if_true, ends_pure] at hq
    obtain ⟨rfl, rfl⟩ := hq
    exact .refused hpayload
  | false =>
    simp only [Bool.false_eq_true, if_false] at hq
    rw [ends_bind] at hq
    obtain ⟨k, _, c, rfl, hk, hq⟩ := hq
    simp only [ends_bind, ends_bounded] at hq
    obtain ⟨_, _, written, rfl, ⟨a, rfl, hw⟩, hq⟩ := hq
    rcases written with e | u
    · simp only [ends_pure] at hq
      obtain ⟨rfl, rfl⟩ := hq
      simp only [List.append_nil, List.singleton_append]
      exact .unwritten hpayload hk hw.symm
    · simp only [ends_pure] at hq
      obtain ⟨rfl, rfl⟩ := hq
      obtain rfl := boundedResult_eq_ok_iff.1 hw.symm
      simp only [List.append_nil, List.singleton_append]
      exact .written hpayload hk

/-- A comparison that is reported was made before the write. -/
theorem TargetCourse.compared {report : TargetReport} (hc : TargetCourse p r f h report)
    {c : Comparison} (hreport : report.comparison = some c) :
    ∃ payload k, f.payload = .ok payload ∧ k ⊆ h ∧
      (comparison p r f.target payload).Ends k (some c) := by
  cases hc with
  | unfetched => cases hreport
  | refused => cases hreport
  | @written payload k _ hf hk =>
    obtain rfl := hreport
    exact ⟨payload, k, hf, fun e he => by simp [he], hk⟩
  | @unwritten payload k _ _ _ hf hk =>
    obtain rfl := hreport
    exact ⟨payload, k, hf, fun e he => by simp [he], hk⟩

theorem TargetCourse.target_eq {report : TargetReport} (hc : TargetCourse p r f h report) :
    report.target = f.target := by
  cases hc <;> rfl

/-! ## All targets of a kind -/

/-- The writes of several targets, one after another. -/
inductive TargetCourses (p : SyncPolicy) (r : KindReport) :
    List Fetched → List Exchange → List TargetReport → Prop
  | nil : TargetCourses p r [] [] []
  | cons {f : Fetched} {fs : List Fetched} {h k : List Exchange} {report : TargetReport}
    {reports : List TargetReport} (head : TargetCourse p r f h report)
    (tail : TargetCourses p r fs k reports) :
    TargetCourses p r (f :: fs) (h ++ k) (report :: reports)

theorem ends_writeTargets {fs : List Fetched} {reports : List TargetReport}
    (hq : (writeTargets p r fs).Ends h reports) : TargetCourses p r fs h reports := by
  induction fs generalizing h reports with
  | nil =>
    simp only [writeTargets, ends_pure] at hq
    obtain ⟨rfl, rfl⟩ := hq
    exact .nil
  | cons f fs ih =>
    simp only [writeTargets, ends_bind, ends_pure] at hq
    obtain ⟨_, _, report, rfl, hhead, _, _, others, rfl, htail, rfl, rfl⟩ := hq
    rw [List.append_nil]
    exact .cons (ends_writeTarget hhead) (ih htail)

theorem asks_writeTargets {fs : List Fetched} (hq : (writeTargets p r fs).Asks h q) :
    ∃ before f after h₁ h₂ reports, fs = before ++ f :: after ∧ h = h₁ ++ h₂ ∧
      TargetCourses p r before h₁ reports ∧ (writeTarget p r f).Asks h₂ q := by
  induction fs generalizing h with
  | nil => simp [writeTargets] at hq
  | cons f fs ih =>
    simp only [writeTargets, asks_bind, asks_pure, and_false, exists_false, or_false] at hq
    obtain hq | ⟨k, l, report, rfl, hhead, hq⟩ := hq
    · exact ⟨[], f, fs, [], h, [], rfl, rfl, .nil, hq⟩
    · obtain ⟨before, g, after, h₁, h₂, reports, rfl, rfl, hbefore, hg⟩ := ih hq
      exact ⟨f :: before, g, after, k ++ h₁, h₂, report :: reports, rfl,
        (List.append_assoc ..).symm, .cons (ends_writeTarget hhead) hbefore, hg⟩

/-- Reports come in the order of the targets. -/
theorem TargetCourses.map_target {fs : List Fetched} {reports : List TargetReport}
    (hc : TargetCourses p r fs h reports) :
    reports.map (·.target) = fs.map (·.target) := by
  induction hc with
  | nil => rfl
  | cons head _ ih =>
    simp only [List.map_cons, ih, head.target_eq]

/-- When every target has succeeded, each was fetched and its write was answered. -/
theorem TargetCourses.written_of_forall {fs : List Fetched} {reports : List TargetReport}
    (hc : TargetCourses p r fs h reports) (hs : ∀ report ∈ reports, report.error = none) :
    ∀ f ∈ fs, ∃ payload, f.payload = .ok payload ∧
      ⟨.call (writeCall p r f.target payload) p.ioTimeout, some (.ok ())⟩ ∈ h := by
  induction hc with
  | nil => nofun
  | cons head _ ih =>
    intro f hf
    obtain rfl | hf := List.mem_cons.1 hf
    · have herror := hs _ List.mem_cons_self
      cases head with
      | unfetched => cases herror
      | refused => cases herror
      | unwritten => cases herror
      | written hf hk => exact ⟨_, hf, by simp⟩
    · obtain ⟨payload, hp, hm⟩ := ih (fun report hr => hs report (List.mem_cons_of_mem _ hr)) f hf
      exact ⟨payload, hp, List.mem_append_right _ hm⟩

/-- What was fetched is written, unless a cancellation was seen. -/
theorem TargetCourses.cases_of_fetched {fs : List Fetched} {reports : List TargetReport}
    (hc : TargetCourses p r fs h reports) (hf : f ∈ fs) {payload : Json}
    (hp : f.payload = .ok payload) :
    cancelAnswer true ∈ h ∨
      ∃ a, ⟨.call (writeCall p r f.target payload) p.ioTimeout, a⟩ ∈ h := by
  induction hc with
  | nil => cases hf
  | cons head _ ih =>
    obtain rfl | hf := List.mem_cons.1 hf
    · cases head with
      | unfetched hf =>
        rw [hp] at hf
        cases hf
      | refused => exact .inl (by simp)
      | written hf hk =>
        obtain rfl := Except.ok.inj (hp.symm.trans hf)
        exact .inr ⟨some (.ok ()), by simp⟩
      | @unwritten payload' k c a e hf hk ha =>
        obtain rfl := Except.ok.inj (hp.symm.trans hf)
        exact .inr ⟨a, by simp⟩
    · obtain hm | ⟨a, hm⟩ := ih hf
      · exact .inl (List.mem_append_right _ hm)
      · exact .inr ⟨a, List.mem_append_right _ hm⟩

/-- What is exchanged for several targets is exchanged for one of them, and each of them has its
report. -/
theorem TargetCourses.exists_of_mem {fs : List Fetched} {reports : List TargetReport}
    (hc : TargetCourses p r fs h reports) :
    (∀ e ∈ h, ∃ f ∈ fs, ∃ report ∈ reports, ∃ k, e ∈ k ∧ TargetCourse p r f k report) ∧
      ∀ report ∈ reports, ∃ f ∈ fs, ∃ k, k ⊆ h ∧ TargetCourse p r f k report := by
  induction hc with
  | nil => exact ⟨fun _ he => absurd he List.not_mem_nil, fun _ hr => absurd hr List.not_mem_nil⟩
  | @cons f fs h k report reports head _ ih =>
    obtain ⟨hmem, hreports⟩ := ih
    refine ⟨fun e he => ?_, fun report' hr => ?_⟩
    · obtain he | he := List.mem_append.1 he
      · exact ⟨f, List.mem_cons_self, report, List.mem_cons_self, h, he, head⟩
      · obtain ⟨g, hg, report', hr, l, hl, hcourse⟩ := hmem e he
        exact ⟨g, List.mem_cons_of_mem _ hg, report', List.mem_cons_of_mem _ hr, l, hl, hcourse⟩
    · obtain rfl | hr := List.mem_cons.1 hr
      · exact ⟨f, List.mem_cons_self, h, List.subset_append_left .., head⟩
      · obtain ⟨g, hg, l, hl, hcourse⟩ := hreports report' hr
        exact ⟨g, List.mem_cons_of_mem _ hg, l, List.subset_append_of_subset_right _ hl, hcourse⟩

/-! ## The commit -/

/-- The call that commits a kind. -/
def commitCall (r : KindReport) : Call := .commit r.kind r.newVersion

theorem asks_expire {v : Version} {ts : List FetchTarget} (hq : (expire p v ts).Asks h q) :
    ∃ t ∈ ts, q = .call (.invalidate (t.key v)) p.ioTimeout := by
  induction ts generalizing h with
  | nil => simp [expire] at hq
  | cons t ts ih =>
    simp only [expire, asks_bind, asks_bounded] at hq
    obtain ⟨-, rfl⟩ | ⟨_, _, _, rfl, -, hq⟩ := hq
    · exact ⟨t, List.mem_cons_self, rfl⟩
    · obtain ⟨u, hu, rfl⟩ := ih hq
      exact ⟨u, List.mem_cons_of_mem _ hu, rfl⟩

/-- Only entries of another version than the committed one are removed. -/
theorem asks_expirePrevious (hq : (expirePrevious p r).Asks h q) :
    ∃ old, r.oldVersion = some old ∧ old ≠ r.newVersion ∧
      ∃ t ∈ r.targets, q = .call (.invalidate (t.target.key old)) p.ioTimeout := by
  unfold expirePrevious at hq
  split at hq
  · simp at hq
  rename_i old hold
  split at hq
  · simp at hq
  rename_i hne
  obtain ⟨t, ht, rfl⟩ := asks_expire hq
  obtain ⟨report, hreport, rfl⟩ := List.mem_map.1 ht
  exact ⟨old, hold, hne, report, hreport, rfl⟩

theorem asks_commitKind (hq : (commitKind p r).Asks h q) :
    r.fullyWritten = true ∧
      ((h = [] ∧ q = .isCancelled) ∨
        (h = [cancelAnswer false] ∧ q = .call (commitCall r) p.ioTimeout) ∨
        (∃ k, h = cancelAnswer false ::
            ⟨.call (commitCall r) p.ioTimeout, some (.ok ())⟩ :: k ∧
          (expirePrevious p r).Asks k q)) := by
  unfold commitKind at hq
  by_cases hfull : r.fullyWritten
  case neg => simp [hfull] at hq
  refine ⟨hfull, ?_⟩
  simp only [hfull, Bool.not_true, Bool.false_eq_true, if_false, asks_bind, asks_request,
    ends_request] at hq
  obtain ⟨rfl, rfl⟩ | ⟨_, l, cancelled, rfl, rfl, hq⟩ := hq
  · exact .inl ⟨rfl, rfl⟩
  cases cancelled with
  | true => simp at hq
  | false =>
    simp only [Bool.false_eq_true, if_false, asks_bind, asks_bounded, ends_bounded] at hq
    obtain ⟨rfl, rfl⟩ | ⟨_, _, result, rfl, ⟨a, rfl, ha⟩, hq⟩ := hq
    · exact .inr (.inl ⟨rfl, rfl⟩)
    rcases result with e | u
    · simp at hq
    · obtain rfl := boundedResult_eq_ok_iff.1 ha.symm
      simp only [asks_bind, asks_pure, and_false, exists_false, or_false] at hq
      exact .inr (.inr ⟨_, rfl, hq⟩)

/-! ## Kinds -/

theorem asks_processKind {fetched : List Fetched} (hq : (processKind p fetched r).Asks h q) :
    (writeTargets p r (fetched.filter fun f => f.target.kind = r.kind)).Asks h q ∨
      ∃ h₁ h₂ reports, h = h₁ ++ h₂ ∧
        (writeTargets p r (fetched.filter fun f => f.target.kind = r.kind)).Ends h₁ reports ∧
        (commitKind p { r with targets := reports }).Asks h₂ q := by
  simp only [processKind, asks_bind] at hq
  exact hq

theorem asks_processKinds {fetched : List Fetched} {rs : List KindReport}
    (hq : (processKinds p fetched rs).Asks h q) :
    ∃ before r after h₁ h₂ reports, rs = before ++ r :: after ∧ h = h₁ ++ h₂ ∧
      (processKinds p fetched before).Ends h₁ reports ∧ (processKind p fetched r).Asks h₂ q := by
  induction rs generalizing h with
  | nil => simp [processKinds] at hq
  | cons r rs ih =>
    simp only [processKinds, asks_bind, asks_pure, and_false, exists_false, or_false] at hq
    obtain hq | ⟨k, l, report, rfl, hhead, hq⟩ := hq
    · exact ⟨[], r, rs, [], h, [], rfl, rfl, by simp [processKinds], hq⟩
    · obtain ⟨before, r', after, h₁, h₂, reports, rfl, rfl, hbefore, hr'⟩ := ih hq
      refine ⟨r :: before, r', after, k ++ h₁, h₂, report :: reports, rfl,
        (List.append_assoc ..).symm, ?_, hr'⟩
      simp only [processKinds, ends_bind, ends_pure]
      exact ⟨k, h₁, report, rfl, hhead, h₁, [], reports, by simp, hbefore, rfl, rfl⟩

/-- What is asked for while the targets of a kind are written concerns that kind, and is no commit. -/
theorem asks_writeTargets_concerns {fetched : List Fetched}
    (hq : (writeTargets p r (fetched.filter fun f => f.target.kind = r.kind)).Asks h q) :
    q.Concerns r.kind ∧ ∀ c limit, q = .call c limit →
      (∃ key, c = .read key) ∨ ∃ key payload lifetime, c = .write key payload lifetime := by
  obtain ⟨before, f, after, _, _, _, heq, -, -, hq⟩ := asks_writeTargets hq
  have hmem : f ∈ fetched.filter fun f => f.target.kind = r.kind := by simp [heq]
  have hkind : f.target.kind = r.kind := by simpa using (List.mem_filter.1 hmem).2
  obtain ⟨payload, -, ⟨-, rfl⟩ | ⟨_, -, hq⟩ | ⟨_, _, -, -, rfl⟩⟩ := asks_writeTarget hq
  · exact ⟨trivial, nofun⟩
  · obtain rfl | ⟨old, -, rfl⟩ := asks_comparison hq
    · exact ⟨trivial, nofun⟩
    · refine ⟨⟨f.target, old, hkind, rfl⟩, ?_⟩
      rintro c limit ⟨⟩
      exact .inl ⟨_, rfl⟩
  · refine ⟨⟨f.target, r.newVersion, hkind, rfl⟩, ?_⟩
    rintro c limit ⟨⟩
    exact .inr ⟨_, _, _, rfl⟩

theorem TargetCourses.kind_eq {fetched : List Fetched} {reports : List TargetReport}
    (hc : TargetCourses p r (fetched.filter fun f => f.target.kind = r.kind) h reports) :
    ∀ report ∈ reports, report.target.kind = r.kind := by
  intro report hr
  have hmem := List.mem_map_of_mem (f := (·.target)) hr
  rw [hc.map_target] at hmem
  obtain ⟨f, hf, heq⟩ := List.mem_map.1 hmem
  rw [← heq]
  simpa using (List.mem_filter.1 hf).2

/-- **What is asked for while a kind is processed concerns that kind.** -/
theorem asks_processKind_concerns {fetched : List Fetched}
    (hq : (processKind p fetched r).Asks h q) : q.Concerns r.kind := by
  obtain hq | ⟨_, _, reports, -, hreports, hq⟩ := asks_processKind hq
  · exact (asks_writeTargets_concerns hq).1
  · obtain ⟨-, ⟨-, rfl⟩ | ⟨-, rfl⟩ | ⟨_, -, hq⟩⟩ := asks_commitKind hq
    · trivial
    · rfl
    · obtain ⟨old, -, -, report, hreport, rfl⟩ := asks_expirePrevious hq
      exact ⟨report.target, old, (ends_writeTargets hreports).kind_eq report hreport, rfl⟩

theorem asks_processKinds_concerns {fetched : List Fetched} {rs : List KindReport}
    (hq : (processKinds p fetched rs).Asks h q) : ∃ r ∈ rs, q.Concerns r.kind := by
  obtain ⟨before, r, after, _, _, _, rfl, -, -, hq⟩ := asks_processKinds hq
  exact ⟨r, by simp, asks_processKind_concerns hq⟩

/-! ## The last parts of an epoch -/

theorem asks_writing {e : Epoch} {fetched : List Fetched} (hq : (writing p e fetched).Asks h q) :
    (h = [] ∧ q = .isCancelled) ∨ (∃ c, h = [cancelAnswer c] ∧ q = .publish .writing) ∨
      ∃ c k, h = cancelAnswer c :: ⟨.publish .writing, ()⟩ :: k ∧
        (processKinds p fetched e.kinds).Asks k q := by
  simp only [writing, asks_bind, asks_request, ends_request, asks_pure, and_false, exists_false,
    or_false] at hq
  obtain hq | ⟨_, _, c, rfl, rfl, ⟨rfl, rfl⟩ | ⟨_, k, _, rfl, rfl, hq⟩⟩ := hq
  · exact .inl hq
  · exact .inr (.inl ⟨c, rfl, rfl⟩)
  · exact .inr (.inr ⟨c, k, rfl, hq⟩)

/-- An epoch counts as cancelled when it was so before anything was written. -/
theorem ends_writing {e finished : Epoch} {fetched : List Fetched}
    (hq : (writing p e fetched).Ends h finished) :
    ∃ c k kinds, h = cancelAnswer c :: ⟨.publish .writing, ()⟩ :: k ∧
      (processKinds p fetched e.kinds).Ends k kinds ∧
      finished = { e with kinds := kinds, cancelled := c } := by
  simp only [writing, ends_bind, ends_request, ends_pure] at hq
  obtain ⟨_, _, c, rfl, rfl, _, _, _, rfl, rfl, k, _, kinds, rfl, hk, rfl, rfl⟩ := hq
  exact ⟨c, k, kinds, by simp [cancelAnswer], hk, rfl⟩

theorem asks_announcing {e : Epoch} (hq : (announcing e).Asks h q) :
    q.isOfConclusion = true := by
  simp only [announcing, asks_bind, asks_request, asks_pure, and_false, exists_false,
    or_false] at hq
  obtain ⟨-, rfl⟩ | ⟨_, _, _, rfl, -, ⟨-, rfl⟩ | ⟨_, _, _, rfl, -, ⟨-, rfl⟩ |
    ⟨_, _, _, rfl, -, -, rfl⟩⟩⟩ := hq <;> rfl

theorem asks_concluding {e : Epoch} (hq : (concluding e).Asks h q) :
    q.isOfConclusion = true := by
  simp only [concluding, asks_bind, asks_request, ends_request] at hq
  obtain ⟨-, rfl⟩ | ⟨_, _, now, rfl, -, hq⟩ := hq
  · rfl
  split at hq
  · simp only [asks_bind, asks_request] at hq
    obtain ⟨-, rfl⟩ | ⟨_, _, _, rfl, -, hq⟩ := hq
    · rfl
    · exact asks_announcing hq
  · exact asks_announcing hq

theorem ends_announcing {e finished : Epoch} (hq : (announcing e).Ends h finished) :
    finished = e := by
  simp only [announcing, ends_bind, ends_request, ends_pure] at hq
  obtain ⟨_, _, _, rfl, -, _, _, _, rfl, -, _, _, _, rfl, -, _, _, _, rfl, -, -, rfl⟩ := hq
  rfl

theorem ends_concluding {e finished : Epoch} (hq : (concluding e).Ends h finished) :
    ∃ now, finished = e.finalize now := by
  simp only [concluding, ends_bind, ends_request] at hq
  obtain ⟨_, _, now, rfl, -, hq⟩ := hq
  refine ⟨now, ?_⟩
  split at hq
  · simp only [ends_bind, ends_request] at hq
    obtain ⟨_, _, _, rfl, -, hq⟩ := hq
    exact ends_announcing hq
  · exact ends_announcing hq

end Engine

end ContentSync
