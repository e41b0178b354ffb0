import ContentSync.Proofs.Engine.Passage
import ContentSync.Proofs.Engine.ReportPath
import Mathlib.Algebra.BigOperators.Group.Finset.Piecewise
import Mathlib.Algebra.Order.BigOperators.Group.Finset

/-!
# How many calls an epoch makes

Every call of an epoch is one of the attempts to learn the versions, the one call for the committed
versions, a lookup, an attempt to fetch a selected target, one of the calls for its payload, or a
commit. So however they end, their number is limited by the attempts and the targets.

* `length_callsOf_withRetry`, `callsOf_missing`, `length_callsOf_processKinds` — the calls of the parts
  of an epoch;
* `length_calls` — the calls of an epoch are its own and those of its jobs;
* `Concerned` — a target is looked up or selected;
* `Run.length_calls_le` — how many calls there are when a number of targets are concerned.
-/

set_option autoImplicit false

namespace ContentSync

namespace Engine

open Program

variable {p : SyncPolicy} {trigger : Trigger} {t : List Moment} {s : Situation} {epoch : Epoch}
  {h : List Exchange}

@[simp] theorem callsOf_attempt (c : Call) (limit : Duration) (ending : Ending c.Answer)
    (h : List Exchange) : callsOf (⟨.attempt c limit, ending⟩ :: h) = c :: callsOf h := rfl

@[simp] theorem callsOf_pause (length : Duration) (cut : Bool) (h : List Exchange) :
    callsOf (⟨.pause length, cut⟩ :: h) = callsOf h := rfl

/-! ## Attempts -/

/-- How many attempts a call with retries makes at most. -/
def attemptLimit (p : SyncPolicy) : Nat := max 1 p.retry.maxAttempts

theorem length_callsOf_retrying {what : String} {c : Call} {left attempt : Nat}
    {x : Nat × Except Failure c.Answer} (hr : (retrying p what c left attempt).Ends h x) :
    (callsOf h).length ≤ left + 1 := by
  obtain ⟨n, result⟩ := x
  induction left generalizing attempt h with
  | zero =>
    obtain ⟨ending, rfl, -⟩ := ends_retrying_zero.1 hr
    exact Nat.le_refl 1
  | succ left ih =>
    obtain ⟨ending, k, rfl, hk⟩ := ends_retrying_succ.1 hr
    rw [callsOf_attempt, List.length_cons]
    obtain ⟨rfl, -⟩ | ⟨f, cut, l, -, -, rfl, hl⟩ := hk
    · exact Nat.succ_le_succ (Nat.zero_le _)
    · -- The pause is cut short, or it is followed by another attempt.
      rw [callsOf_pause]
      cases cut with
      | true =>
        obtain ⟨rfl, -⟩ := (if_pos rfl).mp hl
        exact Nat.succ_le_succ (Nat.zero_le _)
      | false => exact Nat.succ_le_succ (ih ((if_neg Bool.false_ne_true).mp hl))

/-- **A call with retries is made at most as often as the policy allows**, and once at least. -/
theorem length_callsOf_withRetry {what : String} {c : Call} {x : Nat × Except Failure c.Answer}
    (hr : (withRetry p what c).Ends h x) : (callsOf h).length ≤ attemptLimit p := by
  have hle := length_callsOf_retrying hr
  unfold attemptLimit
  omega

theorem length_callsOf_fetchOne {job : Job} {f : Fetched} (hr : (fetchOne p job).Ends h f) :
    (callsOf h).length ≤ attemptLimit p := by
  obtain ⟨k, _, x, rfl, hk, hl⟩ := ends_bind.1 hr
  obtain ⟨rfl, -⟩ := ends_pure.1 hl
  rw [List.append_nil]
  exact length_callsOf_withRetry hk

theorem length_callsOf_bounded {what : String} {late : String → Failure} {c : Call}
    {x : Except Failure c.Answer}
    (hr : @Ends (no_index (Except Failure c.Answer)) (bounded p what late c) h x) :
    (callsOf h).length = 1 := by
  obtain ⟨a, rfl, -⟩ := ends_bounded.1 hr
  rfl

/-! ## The check -/

theorem length_callsOf_check {result : Except Failure (Metadata × StoredVersions)}
    (hr : (check p).Ends h result) : (callsOf h).length ≤ attemptLimit p + 1 := by
  obtain ⟨k, l, ⟨_, advertised⟩, rfl, hk, hl⟩ := ends_bind.1 hr
  have hle := length_callsOf_withRetry hk
  rw [callsOf_append, List.length_append]
  cases advertised with
  | error f =>
    obtain ⟨rfl, -⟩ := ends_pure.1 hl
    simp only [callsOf_nil, List.length_nil]
    omega
  | ok m =>
    obtain ⟨_, _, stored, rfl, hstored, hpure⟩ := ends_bind.1 hl
    obtain ⟨rfl, -⟩ := ends_pure.1 hpure
    rw [List.append_nil, length_callsOf_bounded hstored]
    omega

/-- The targets that are looked up for a kind. -/
def lookups (p : SyncPolicy) (m : Metadata) (stored : StoredVersions) (k : DataKind) :
    List FetchTarget :=
  if stored.get k = some (m.latest k) then p.targets k else []

/-- Every target is looked up once. -/
theorem callsOf_missing {v : Version} {ts found : List FetchTarget}
    (hr : (missing p v ts).Ends h found) : callsOf h = ts.map fun t => .exist (t.key v) := by
  induction ts generalizing h found with
  | nil =>
    obtain ⟨rfl, -⟩ := ends_pure.1 hr
    rfl
  | cons t ts ih =>
    simp only [missing, ends_bind, ends_bounded, ends_pure] at hr
    obtain ⟨_, _, _, rfl, ⟨a, rfl, -⟩, k, _, others, rfl, hk, rfl, -⟩ := hr
    rw [List.append_nil, List.singleton_append, callsOf_call, ih hk, List.map_cons]

/-- **Every target of an unchanged version is looked up once**, and nothing else is called for. -/
theorem callsOf_selectKinds {m : Metadata} {stored : StoredVersions} {ks : List DataKind}
    {sels : List Selection} (hr : (selectKinds p m stored ks).Ends h sels) :
    callsOf h = ks.flatMap fun k =>
      (lookups p m stored k).map fun t => .exist (t.key (m.latest k)) := by
  induction ks generalizing h sels with
  | nil =>
    obtain ⟨rfl, -⟩ := ends_pure.1 hr
    rfl
  | cons k ks ih =>
    simp only [selectKinds, ends_bind, ends_pure] at hr
    obtain ⟨k₁, _, targets, rfl, hk, k₂, _, others, rfl, hks, rfl, -⟩ := hr
    rw [List.append_nil, callsOf_append, ih hks, List.flatMap_cons]
    congr 1
    unfold targetsToFetch at hk
    unfold lookups
    split at hk
    · rename_i hsame
      rw [if_pos hsame, callsOf_missing hk]
    · rename_i hchanged
      obtain ⟨rfl, -⟩ := ends_pure.1 hk
      rw [if_neg hchanged]
      rfl

/-! ## Writing -/

section

variable {r : KindReport}

theorem length_callsOf_comparison {target : FetchTarget} {new : Json} {x : Option Comparison}
    (hr : (comparison p r target new).Ends h x) : (callsOf h).length ≤ 1 := by
  have hcompute : ∀ {l old y}, (computeChanges target old new).Ends l y → callsOf l = [] := by
    intro l old y hl
    simp only [computeChanges, ends_bind, ends_request, ends_pure] at hl
    obtain ⟨_, _, _, rfl, rfl, rfl, -⟩ := hl
    rfl
  unfold comparison at hr
  split at hr
  · obtain ⟨rfl, -⟩ := ends_pure.1 hr
    exact Nat.zero_le 1
  obtain ⟨y, hr, -⟩ := ends_map.1 hr
  unfold compareTarget at hr
  split at hr
  · rw [hcompute hr]
    exact Nat.zero_le 1
  · obtain ⟨k, l, found, rfl, hk, hl⟩ := ends_bind.1 hr
    rw [callsOf_append, List.length_append, length_callsOf_bounded hk]
    cases found with
    | ok baseline => rw [hcompute hl, List.length_nil]
    | error f =>
      obtain ⟨rfl, -⟩ := ends_pure.1 hl
      exact Nat.le_refl 1

theorem TargetCourse.length_callsOf {f : Fetched} {report : TargetReport}
    (hc : TargetCourse p r f h report) : (callsOf h).length ≤ 2 := by
  cases hc with
  | unfetched | refused => exact Nat.zero_le 2
  | written hf hk | unwritten hf hk =>
    rw [callsOf_cancelAnswer, callsOf_append, List.length_append]
    exact Nat.succ_le_succ (length_callsOf_comparison hk)

theorem TargetCourses.length_callsOf {fs : List Fetched} {reports : List TargetReport}
    (hc : TargetCourses p r fs h reports) : (callsOf h).length ≤ 2 * fs.length := by
  induction hc with
  | nil => exact Nat.le_refl 0
  | cons head tail ih =>
    have hle := head.length_callsOf
    rw [callsOf_append, List.length_append, List.length_cons]
    omega

/-- Every target is removed once. -/
theorem callsOf_expire {v : Version} {ts : List FetchTarget} (hr : (expire p v ts).Ends h ()) :
    callsOf h = ts.map fun t => .invalidate (t.key v) := by
  induction ts generalizing h with
  | nil =>
    obtain ⟨rfl, -⟩ := ends_pure.1 hr
    rfl
  | cons t ts ih =>
    simp only [expire, ends_bind, ends_bounded] at hr
    obtain ⟨_, k, _, rfl, ⟨a, rfl, -⟩, hk⟩ := hr
    rw [List.singleton_append, callsOf_call, ih hk, List.map_cons]

theorem length_callsOf_expirePrevious (hr : (expirePrevious p r).Ends h ()) :
    (callsOf h).length ≤ r.targets.length := by
  unfold expirePrevious at hr
  split at hr
  · obtain ⟨rfl, -⟩ := ends_pure.1 hr
    exact Nat.zero_le _
  split at hr
  · obtain ⟨rfl, -⟩ := ends_pure.1 hr
    exact Nat.zero_le _
  · rw [callsOf_expire hr, List.length_map, List.length_map]

theorem length_callsOf_commitKind {report : KindReport} (hr : (commitKind p r).Ends h report) :
    (callsOf h).length ≤ r.targets.length + 1 := by
  obtain ⟨rfl, -⟩ | ⟨rfl, -⟩ | ⟨a, f, rfl, -⟩ | ⟨k, rfl, -, hk, -⟩ := ends_commitKind hr
  · exact Nat.zero_le _
  · exact Nat.zero_le _
  · simp
  · have hle := length_callsOf_expirePrevious hk
    rw [callsOf_cancelAnswer, callsOf_call, List.length_cons]
    omega

/-- **Three calls for each target of a kind**, and one for the kind. -/
theorem length_callsOf_processKind {fetched : List Fetched} {report : KindReport}
    (hr : (processKind p fetched r).Ends h report) :
    (callsOf h).length ≤ 3 * fetched.countP (fun f => f.target.kind = r.kind) + 1 := by
  obtain ⟨k, l, reports, rfl, hwrites, hcommit⟩ := ends_processKind hr
  have hcourses := ends_writeTargets hwrites
  have hk := hcourses.length_callsOf
  have hl := length_callsOf_commitKind hcommit
  have hreports : reports.length = fetched.countP (fun f => f.target.kind = r.kind) := by
    rw [List.countP_eq_length_filter, ← List.length_map (f := TargetReport.target),
      hcourses.map_target, List.length_map]
  rw [← List.countP_eq_length_filter] at hk
  rw [callsOf_append, List.length_append]
  simp only at hl
  omega

/-- Each target is one of only one kind. -/
theorem length_filter_kinds_le {ks : List DataKind} (hks : ks.Nodup) (fetched : List Fetched) :
    (ks.flatMap fun k => fetched.filter fun f => f.target.kind = k).length ≤ fetched.length := by
  simp only [List.length_flatMap, ← List.countP_eq_length_filter]
  induction fetched with
  | nil => simp
  | cons f fetched ih =>
    have hone : (ks.map fun k => if f.target.kind = k then 1 else 0).sum ≤ 1 := by
      rw [← List.sum_toFinset _ hks, Finset.sum_ite_eq]
      split <;> omega
    simp only [List.countP_cons, decide_eq_true_eq, List.sum_map_add, List.length_cons]
    omega

/-- **Three calls for each target**, and one for each kind. -/
theorem length_callsOf_processKinds {fetched : List Fetched} {rs reports : List KindReport}
    (hr : (processKinds p fetched rs).Ends h reports) (hnodup : (rs.map (·.kind)).Nodup) :
    (callsOf h).length ≤ 3 * fetched.length + rs.length := by
  have hsum : (callsOf h).length ≤ 3 * ((rs.map (·.kind)).flatMap fun k =>
      fetched.filter fun f => f.target.kind = k).length + rs.length := by
    clear hnodup
    induction rs generalizing h reports with
    | nil =>
      obtain ⟨rfl, -⟩ := ends_pure.1 hr
      exact Nat.le_refl 0
    | cons r rs ih =>
      obtain ⟨k, l, report, others, rfl, -, hhead, htail⟩ := ends_processKinds_cons hr
      have hk := length_callsOf_processKind hhead
      have hl := ih htail
      rw [List.countP_eq_length_filter] at hk
      simp only [callsOf_append, List.length_append, List.map_cons, List.flatMap_cons,
        List.length_cons]
      omega
  have hle := length_filter_kinds_le hnodup fetched
  omega

end

/-! ## The epoch -/

/-- **The calls of an epoch are its own and those of its jobs.** -/
theorem length_calls {n : Nat} (hjobs : ∀ i r, Moment.asked (.job i) r ∈ t → i < n) :
    (calls t).length = ((requests .epoch t).filterMap Request.call?).length +
      ∑ i ∈ Finset.range n, ((requests (.job i) t).filterMap Request.call?).length := by
  induction t with
  | nil => simp [calls]
  | cons m t ih =>
    have hrest := ih fun i r hr => hjobs i r (List.mem_cons_of_mem _ hr)
    have hsplit : ∀ w, (requests w (m :: t)).filterMap Request.call? =
        (requests w [m]).filterMap Request.call? ++ (requests w t).filterMap Request.call? := by
      intro w
      rw [← List.singleton_append, requests_append, List.filterMap_append]
    rw [← List.singleton_append, calls_append, List.singleton_append, List.length_append, hrest]
    simp only [hsplit, List.length_append, Finset.sum_add_distrib]
    suffices hone : (calls [m]).length = ((requests .epoch [m]).filterMap Request.call?).length +
        ∑ i ∈ Finset.range n, ((requests (.job i) [m]).filterMap Request.call?).length by omega
    cases m with
    | cancelled | answered | selected | progressed => simp [calls]
    | asked w r =>
      have hself : (requests w [.asked w r]).filterMap Request.call? = calls [.asked w r] := by
        simp [calls, List.filterMap_cons]
      cases w with
      | epoch =>
        rw [hself]
        simp
      | job k =>
        have hother : ∀ i, ((requests (.job i) [.asked (.job k) r]).filterMap Request.call?).length =
            if k = i then (calls [.asked (.job k) r]).length else 0 := by
          intro i
          split
          · rename_i hi
            rw [← hi, hself]
          · rename_i hi
            simp [hi]
        have hk := Finset.mem_range.2 (hjobs k r List.mem_cons_self)
        simp only [hother, Finset.sum_ite_eq, if_pos hk]
        simp

/-- Of an epoch that is over, the calls that were answered are all there are. -/
theorem Run.length_calls_eq (run : Run p trigger t (.ended epoch)) {n : Nat}
    (hbeyond : ∀ i, n ≤ i → exchanges (.job i) t = []) :
    (calls t).length = (callsOf (exchanges .epoch t)).length +
      ∑ i ∈ Finset.range n, (callsOf (exchanges (.job i) t)).length := by
  have hanswered : ∀ w, (requests w t).filterMap Request.call? = callsOf (exchanges w t) := by
    intro w
    rw [run.answered_all w, List.filterMap_map]
    rfl
  rw [length_calls (n := n)]
  · simp only [hanswered]
  · intro i r hr
    by_contra hle
    have hmem := mem_requests.2 hr
    rw [run.answered_all, hbeyond i (Nat.le_of_not_lt hle)] at hmem
    cases hmem

/-- A target that an epoch has looked up or selected. -/
inductive Concerned (t : List Moment) (target : FetchTarget) : Prop
  | lookedUp {v : Version} (called : .exist (target.key v) ∈ calls t)
  | selected {jobs : List Job} {v : Version} (selected : jobs ∈ selections t)
    (mem : (target, v) ∈ jobs)

/-- There are no more targets than six. -/
theorem exists_concerned (t : List Moment) : ∃ targets : List FetchTarget, targets.Nodup ∧
    (∀ target, target ∈ targets ↔ Concerned t target) ∧ targets.length ≤ 6 := by
  classical
  refine ⟨FetchTarget.all.filter (Concerned t ·), ?_, fun target => ?_, ?_⟩
  · exact List.Nodup.filter _ (by decide)
  · simp [FetchTarget.mem_all]
  · exact Nat.le_trans (List.length_filter_le ..) (by decide)

/-- The targets that are looked up are different. -/
theorem nodup_lookups (m : Metadata) (stored : StoredVersions) :
    (DataKind.all.flatMap (lookups p m stored)).Nodup := by
  have hkind : ∀ k, ∀ target ∈ lookups p m stored k, target.kind = k := by
    intro k target ht
    unfold lookups at ht
    split at ht
    · exact SyncPolicy.kind_of_mem_targets ht
    · cases ht
  refine List.nodup_flatMap.2 ⟨fun k _ => ?_, ?_⟩
  · unfold lookups
    split
    · exact p.nodup_targets k
    · exact List.nodup_nil
  · have hkinds : DataKind.all.Pairwise (· ≠ ·) := by decide
    refine hkinds.imp fun {a b} hne target ha hb => hne ?_
    rw [← hkind a target ha, hkind b target hb]

/-- The jobs of an epoch make no more attempts than the policy allows for each. -/
theorem Results.sum_callsOf_le {jobs : List Job} {results : List Fetched}
    (hr : Results p t jobs results) :
    ∑ i ∈ Finset.range jobs.length, (callsOf (exchanges (.job i) t)).length ≤
      jobs.length * attemptLimit p := by
  have hle : ∀ i ∈ Finset.range jobs.length,
      (callsOf (exchanges (.job i) t)).length ≤ attemptLimit p := by
    intro i hi
    rw [Finset.mem_range, ← hr.length_eq] at hi
    obtain ⟨job, -, hends⟩ := hr.result i _ (List.getElem?_eq_getElem hi)
    exact length_callsOf_fetchOne hends
  refine Nat.le_trans (Finset.sum_le_sum hle) (Nat.le_of_eq ?_)
  rw [Finset.sum_const_nat fun _ _ => rfl, Finset.card_range]

section

variable {targets : List FetchTarget}

/-- What is looked up is concerned. -/
theorem Run.length_lookups_le (run : Run p trigger t s) {m : Metadata} {stored : StoredVersions}
    {sels : List Selection} (hr : (selectKinds p m stored DataKind.all).Ends h sels)
    (hsubset : callsOf h ⊆ callsOf (exchanges .epoch t))
    (hcovers : ∀ target, Concerned t target → target ∈ targets) :
    (callsOf h).length ≤ targets.length := by
  rw [callsOf_selectKinds hr] at hsubset ⊢
  have hmem : DataKind.all.flatMap (lookups p m stored) ⊆ targets := by
    intro target ht
    obtain ⟨kind, hkind, ht⟩ := List.mem_flatMap.1 ht
    have hcall := hsubset (List.mem_flatMap.2 ⟨kind, hkind, List.mem_map_of_mem ht⟩)
    obtain ⟨e, he, hcall⟩ := List.mem_filterMap.1 hcall
    exact hcovers target (.lookedUp (run.mem_calls_of_exchange he hcall))
  have hle := ((nodup_lookups m stored).subperm hmem).length_le
  simpa [List.length_flatMap] using hle

/-- What is selected is concerned. -/
theorem Run.length_selected_le (run : Run p trigger t (.ended epoch)) {jobs : List Job}
    (selected : selections t = [jobs]) (hcovers : ∀ target, Concerned t target → target ∈ targets) :
    jobs.length ≤ targets.length := by
  have hmem : jobs.map (·.1) ⊆ targets := by
    intro target ht
    obtain ⟨⟨_, v⟩, hjob, rfl⟩ := List.mem_map.1 ht
    exact hcovers _ (.selected (selected ▸ List.mem_singleton_self _) hjob)
  have hle := ((run.nodup_selected selected).subperm hmem).length_le
  rwa [List.length_map] at hle

/-- **How many calls an epoch makes.** With the targets that are concerned, each call with retries may
be made as often as the policy allows for each of them and for the advertised versions. Each may be
looked up, compared, written and removed, and besides there are the committed versions and the commits
of two kinds. -/
theorem Run.length_calls_le (run : Run p trigger t (.ended epoch))
    (hcovers : ∀ target, Concerned t target → target ∈ targets) :
    (calls t).length ≤ (targets.length + 1) * attemptLimit p + 4 * targets.length + 3 := by
  obtain @⟨began, ceased, c, rest, last, result, e, split, checked, aftermath, silent⟩ := run.passage
  have hepoch : callsOf (exchanges .epoch t) = callsOf c ++ callsOf rest := by
    simp [split, silent]
  have hcheck := length_callsOf_check checked
  cases aftermath with
  | failed f unselected =>
    rw [run.length_calls_eq (n := 0) fun i _ => run.exchanges_job_of_unselected unselected i, hepoch]
    simp only [callsOf_nil, List.append_nil, Finset.range_zero, Finset.sum_empty, Nat.add_mul]
    omega
  | idle surveyed unselected =>
    have hlookups := run.length_lookups_le surveyed (by simp [hepoch]) hcovers
    rw [run.length_calls_eq (n := 0) fun i _ => run.exchanges_job_of_unselected unselected i, hepoch]
    simp only [List.length_append, Finset.range_zero, Finset.sum_empty, Nat.add_mul]
    omega
  | @written m stored k l sels results cancelled kinds surveyed _ selected fetched processed =>
    have hlookups := run.length_lookups_le surveyed (by simp [hepoch]) hcovers
    have hselected := run.length_selected_le selected hcovers
    have hmul := Nat.mul_le_mul_right (attemptLimit p) hselected
    have hjobs := fetched.sum_callsOf_le
    have hkinds := (ends_selectKinds (by decide) surveyed).1
    have htwo : sels.length ≤ 2 := by simpa [DataKind.all] using hkinds.length_le
    have hreports : ((sels.map Selection.report).map (·.kind)).Nodup := by
      rw [List.map_map]
      exact hkinds.nodup (by decide)
    have hprocessed := length_callsOf_processKinds processed hreports
    rw [fetched.length_eq, List.length_map] at hprocessed
    rw [run.length_calls_eq fetched.beyond, hepoch]
    simp only [callsOf_append, callsOf_cancelAnswer, callsOf_publish, List.length_append, Nat.add_mul]
    omega

end

end Engine

end ContentSync
