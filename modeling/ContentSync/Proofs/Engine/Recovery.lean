import ContentSync.Proofs.Engine.Length
import ContentSync.Proofs.Engine.Progress
import ContentSync.Proofs.Engine.Reporting
import ContentSync.Proofs.Engine.Success

/-!
# Recovery

Whatever earlier epochs have left in the stores, one epoch in which nothing goes wrong sets it right.

* `Smooth` — nothing has gone wrong in an epoch: it is not cancelled, and every call succeeds;
* `committed_of_flawless` — a kind whose fetches, writes and commit succeed is committed;
* `Run.smooth_outcome` — a smooth epoch succeeds or is unchanged;
* `Smooth.continues` — a smooth epoch can go on smoothly until it is over;
* `recovery` — what a smooth epoch has achieved when it is over.
-/

set_option autoImplicit false

namespace ContentSync

/-- Every call succeeds within its limit, and the given versions are the ones that are advertised. -/
structure Exchange.Succeeds (m : Metadata) (e : Exchange) : Prop where
  brings : ∀ c, e.request.call? = some c → ∃ x, e.Brings c x
  advertised : ∀ m', e.Brings .metadata m' → m' = m

theorem Exchange.Succeeds.not_failed {m : Metadata} {e : Exchange} (hs : e.Succeeds m) :
    ¬ e.Failed := by
  rintro ⟨c, hcall, hno⟩
  obtain ⟨x, hb⟩ := hs.brings c hcall
  exact hno x hb

/-- A call that writes an entry or commits a version. -/
def Call.isStoring : Call → Bool
  | write _ _ _ | commit _ _ => true
  | metadata | fetch _ _ _ | player _ | versions | read _ | exist _ | invalidate _ => false

/-- An epoch succeeds when it has committed every kind. -/
theorem Outcome.decide_of_committed {kinds : List KindReport} (hne : kinds ≠ [])
    (h : ∀ r ∈ kinds, r.committed = true ∧ r.commitError = none) :
    Outcome.decide kinds = .success := by
  have herror : (kinds.any fun r => r.commitError.isSome) = false := by
    rw [List.any_eq_false]
    intro r hr
    simp [(h r hr).2]
  have hall : (kinds.all fun r => r.committed) = true :=
    List.all_eq_true.2 fun r hr => (h r hr).1
  simp [Outcome.decide, hne, herror, hall]

namespace Engine

open Program

variable {p : SyncPolicy} {trigger : Trigger} {t : List Moment} {s : Situation} {epoch : Epoch}
  {m : Metadata} {start w : World}

/-- Nothing has gone wrong in an epoch. -/
structure Smooth (m : Metadata) (t : List Moment) : Prop where
  uncancelled : wasCancelled t = false
  succeeds : ∀ worker e, Moment.answered worker e ∈ t → e.Succeeds m

/-! ## Smooth epochs that are over -/

/-- When every target of a kind has been fetched and no write fails, all of them are written. -/
theorem TargetCourses.succeeded {r : KindReport} {fs : List Fetched} {h : List Exchange}
    {reports : List TargetReport} (hc : TargetCourses p r fs h reports)
    (hfetched : ∀ f ∈ fs, ∃ payload, f.payload = .ok payload) (hlook : cancelAnswer true ∉ h)
    (hstored : ∀ e ∈ h, ∀ c, e.request.call? = some c → c.isStoring = true → ¬ e.Failed) :
    ∀ report ∈ reports, report.succeeded = true := by
  induction hc with
  | nil => nofun
  | @cons f fs h k report reports head tail ih =>
    intro report' hr
    obtain rfl | hr := List.mem_cons.1 hr
    · obtain ⟨payload, hpayload⟩ := hfetched f List.mem_cons_self
      cases head with
      | unfetched hf =>
        rw [hpayload] at hf
        cases hf
      | refused => simp at hlook
      | written => rfl
      | @unwritten payload' _ _ a _ hf hk ha =>
        exact absurd (failed_of_boundedResult ha)
          (hstored ⟨.call (writeCall p r f.target payload') p.ioTimeout, a⟩ (by simp) _ rfl rfl)
    · exact ih (fun g hg => hfetched g (List.mem_cons_of_mem _ hg))
        (fun hm => hlook (List.mem_append_right _ hm))
        (fun e he => hstored e (List.mem_append_right _ he)) report' hr

/-- **A kind is committed when its targets have been fetched and neither its writes nor its commit
fail.** -/
theorem committed_of_flawless {fetched : List Fetched} {r report : KindReport} {h : List Exchange}
    (hq : (processKind p fetched r).Ends h report) (hr : r.commitError = none)
    (hsome : ∃ f ∈ fetched, f.target.kind = r.kind)
    (hfetched : ∀ f ∈ fetched, f.target.kind = r.kind → ∃ payload, f.payload = .ok payload)
    (hlook : cancelAnswer true ∉ h)
    (hstored : ∀ e ∈ h, ∀ c, e.request.call? = some c → c.isStoring = true → ¬ e.Failed) :
    report.committed = true ∧ report.commitError = none := by
  obtain ⟨k, l, reports, rfl, hwrites, hq⟩ := ends_processKind hq
  have hcourses := ends_writeTargets hwrites
  have hsucceeded := hcourses.succeeded
    (fun f hf => hfetched f (List.mem_filter.1 hf).1 (by simpa using (List.mem_filter.1 hf).2))
    (fun hm => hlook (List.mem_append_left _ hm)) fun e he => hstored e (List.mem_append_left _ he)
  have hfull : KindReport.fullyWritten { r with targets := reports } = true := by
    have hne : reports ≠ [] := by
      rintro rfl
      obtain ⟨f, hf, hkind⟩ := hsome
      have hnil := List.map_eq_nil_iff.1 hcourses.map_target.symm
      exact List.filter_eq_nil_iff.1 hnil f hf (by simpa using hkind)
    simp only [KindReport.fullyWritten, Bool.and_eq_true, Bool.not_eq_true', List.isEmpty_eq_false_iff]
    exact ⟨hne, List.all_eq_true.2 hsucceeded⟩
  obtain ⟨-, hnot, -⟩ | ⟨rfl, -, -⟩ | ⟨a, f, rfl, -, ha, -⟩ | ⟨_, rfl, -, -, rfl⟩ :=
    ends_commitKind hq
  · rw [hfull] at hnot
    cases hnot
  · exact absurd (List.mem_append_right _ (by simp)) hlook
  · exact absurd (failed_of_boundedResult ha)
      (hstored ⟨.call (commitCall { r with targets := reports }) p.ioTimeout, a⟩ (by simp) _ rfl rfl)
  · exact ⟨rfl, hr⟩

/-- A job of which no attempt has failed has its payload. -/
theorem Results.succeeded {jobs : List Job} {results : List Fetched}
    (hr : Results p t jobs results) (hs : Smooth m t) :
    ∀ f ∈ results, ∃ payload, f.payload = .ok payload := by
  intro f hf
  obtain ⟨i, hi⟩ := List.mem_iff_getElem?.1 hf
  obtain ⟨job, -, hends⟩ := hr.result i f hi
  simp only [fetchOne, ends_bind, ends_pure] at hends
  obtain ⟨k, _, ⟨n, result⟩, hk, hends, rfl, rfl⟩ := hends
  cases result with
  | ok payload => exact ⟨payload, rfl⟩
  | error f =>
    obtain ⟨e, he, hfailed⟩ := exists_failed_of_ends_withRetry hends
    have hmem : e ∈ exchanges (.job i) t := by
      rw [hk]
      exact List.mem_append_left _ he
    exact absurd hfailed (hs.succeeds _ e (mem_exchanges.1 hmem)).not_failed

/-- The epoch of a smooth history has not failed. -/
theorem Smooth.not_failed (hs : Smooth m t) : ∀ e ∈ exchanges .epoch t, ¬ e.Failed :=
  fun e he => (hs.succeeds _ e (mem_exchanges.1 he)).not_failed

theorem Smooth.look (hs : Smooth m t) (run : Run p trigger t s) :
    cancelAnswer true ∉ exchanges .epoch t := by
  intro he
  have := run.cancelled_of_look he
  rw [hs.uncancelled] at this
  cases this

/-- **A smooth epoch succeeds or is unchanged.** -/
theorem Run.smooth_outcome (run : Run p trigger t (.ended epoch)) (hs : Smooth m t) :
    epoch.outcome = some .success ∨ epoch.outcome = some .unchanged := by
  cases run.closed with
  | failed _ _ fault =>
    obtain ⟨e, he, hfailed⟩ := fault
    exact absurd hfailed (hs.not_failed e he)
  | idle _ outcome_eq => exact .inr outcome_eq
  | @completed _ _ sels results settled completed =>
    left
    have hcancelled : epoch.cancelled = false := by
      rw [← Bool.not_eq_true]
      intro hc
      have hlook := completed.look
      rw [hc] at hlook
      exact hs.look run hlook
    have hcommitted : ∀ r ∈ epoch.kinds, r.committed = true ∧ r.commitError = none := by
      intro r hr
      obtain ⟨sel, hsel, k, part, ends⟩ := completed.origins r hr
      obtain ⟨-, -, hne, hmem⟩ := settled.selected sel hsel
      obtain ⟨target, ht⟩ := List.exists_mem_of_ne_nil _ hne
      have hkind := SyncPolicy.kind_of_mem_targets ((hmem target).1 ht).1
      obtain ⟨f, hf, rfl⟩ :=
        completed.fetched.exists_of_job ((settled.mem_jobs_iff hsel hkind).2 ⟨rfl, ht⟩)
      exact committed_of_flawless ends rfl ⟨f, hf, hkind⟩
        (fun f hf _ => completed.fetched.succeeded hs f hf) (fun he => hs.look run (part he))
        fun e he _ _ _ => hs.not_failed e (part he)
    have hne : epoch.kinds ≠ [] := by
      intro hnil
      have heq := completed.kinds_eq
      rw [hnil] at heq
      exact completed.ne_nil (List.map_eq_nil_iff.1 heq.symm)
    rw [completed.outcome_eq, hcancelled, Outcome.decide_of_committed hne hcommitted]
    rfl

/-! ## Smooth epochs that go on -/

namespace World

/-- What a call brings when nothing goes wrong. -/
def serving (m : Metadata) (w : World) : (c : Call) → c.Answer
  | .metadata => m
  | .fetch _ _ _ | .player _ => .null
  | .versions => w.versions
  | .commit _ _ | .write _ _ _ | .invalidate _ => ()
  | .read key => w.cache.live? w.now key
  | .exist key => w.cache.contains w.now key

/-- How a request is answered when nothing goes wrong. -/
def serve (m : Metadata) (w : World) : (r : Request) → r.Answer
  | .publish _ | .remember _ | .compute => ()
  | .isCancelled | .pause _ => false
  | .clock => ⟨0, 0⟩
  | .announce _ => true
  | .wait c => .ok (w.serving m c)
  | .call c _ => some (.ok (w.serving m c))
  | .attempt c _ => .answered (.ok (w.serving m c))

theorem serve_admits (m : Metadata) (w : World) (r : Request) : r.Admits false (w.serve m r) := by
  cases r <;> first | rfl | trivial | exact fun hcut => hcut

theorem brings_serve_iff {m : Metadata} {w : World} {r : Request} {c : Call} {x : c.Answer} :
    Exchange.Brings c x ⟨r, w.serve m r⟩ ↔ r.call? = some c ∧ x = w.serving m c := by
  constructor
  · intro hb
    cases r <;> cases hb <;> exact ⟨rfl, rfl⟩
  · rintro ⟨hcall, rfl⟩
    cases r <;> cases hcall <;> constructor

theorem gives_serving (m : Metadata) (w : World) (c : Call) : w.Gives c (w.serving m c) := by
  cases c <;> first | rfl | trivial

theorem answers_serve (m : Metadata) (w : World) (r : Request) :
    w.Answers ⟨r, w.serve m r⟩ := by
  intro c x hb
  obtain ⟨-, rfl⟩ := brings_serve_iff.1 hb
  exact w.gives_serving m c

theorem succeeds_serve (m : Metadata) (w : World) (r : Request) :
    Exchange.Succeeds m ⟨r, w.serve m r⟩ :=
  ⟨fun _ hcall => ⟨_, brings_serve_iff.2 ⟨hcall, rfl⟩⟩, fun _ hb => (brings_serve_iff.1 hb).2⟩

end World

theorem Smooth.append_answered {worker : Worker} {e : Exchange} (hs : Smooth m t)
    (he : e.Succeeds m) : Smooth m (t ++ [.answered worker e]) where
  uncancelled := by rw [wasCancelled_append, hs.uncancelled]; rfl
  succeeds := by
    intro worker' e' hm
    simp only [List.mem_append, List.mem_singleton, Moment.answered.injEq] at hm
    obtain hm | ⟨-, rfl⟩ := hm
    · exact hs.succeeds worker' e' hm
    · exact he

theorem Smooth.append_other {n : Moment} (hs : Smooth m t) (hn : wasCancelled [n] = false)
    (hsilent : ∀ worker e, n ≠ .answered worker e) : Smooth m (t ++ [n]) where
  uncancelled := by simp [hs.uncancelled, hn]
  succeeds := by
    intro worker' e' hm
    simp only [List.mem_append, List.mem_singleton] at hm
    obtain hm | rfl := hm
    · exact hs.succeeds worker' e' hm
    · exact absurd rfl (hsilent worker' e')

/-- A smooth epoch stays smooth in a step in which nothing goes wrong. -/
theorem Smooth.goes_on {n : Option Moment} (hs : Smooth m t) (follows : Follows start t w)
    (hn : GoesOn (w.serve m) n) :
    Smooth m (t ++ n.toList) ∧ ∃ w', Follows start (t ++ n.toList) w' := by
  cases hn with
  | silent => simpa using And.intro hs ⟨w, follows⟩
  | answered worker r =>
    exact ⟨hs.append_answered (w.succeeds_serve m r), _, follows.answered (w.answers_serve m r)⟩
  | asked | selected | progressed =>
    exact ⟨hs.append_other rfl (by simp), w, follows.other (by simp)⟩

/-- **A smooth epoch can go on smoothly until it is over.** -/
theorem Smooth.continues {n : Nat} (hl : s.Lasts p n) (run : Run p trigger t s) (hs : Smooth m t)
    (follows : Follows start t w) :
    ∃ u epoch w', Run p trigger (t ++ u) (.ended epoch) ∧ Smooth m (t ++ u) ∧
      Follows start (t ++ u) w' := by
  induction n using Nat.strongRecOn generalizing t s w with
  | ind n ih =>
    obtain ⟨epoch, rfl⟩ | ⟨o, s', hstep, hgoes⟩ := run.over_or_step (w.serve m)
      (by rw [hs.uncancelled]; exact w.serve_admits m)
    · refine ⟨[], epoch, w, ?_⟩
      simpa using And.intro run ⟨hs, follows⟩
    · obtain ⟨k, hk, hl'⟩ := hl.step hstep
      obtain ⟨hs', w', follows'⟩ := hs.goes_on follows hgoes
      obtain ⟨u, hu⟩ := ih k hk hl' (run.step hstep) hs' follows'
      exact ⟨o.toList ++ u, by simpa using hu⟩

/-! ## What has been achieved -/

/-- A smooth epoch looks well: every lookup brings something. -/
theorem Smooth.looksWell (hs : Smooth m t) : LooksWell t :=
  fun e he _ hcall => (hs.succeeds _ e (mem_exchanges.1 he)).brings _ hcall

/-- What one epoch in which nothing goes wrong leaves behind. -/
structure Recovered (p : SyncPolicy) (m : Metadata) (t : List Moment) (epoch : Epoch) (w : World) :
    Prop where
  outcome_eq : epoch.outcome = some .success ∨ epoch.outcome = some .unchanged
  versions_eq : w.versions = ⟨some m.gameData, some m.localization⟩
  /-- Every target of the advertised versions was written with what was fetched for it, or found in
  the cache. -/
  secured : ∀ kind, ∀ target ∈ p.targets kind, Secured p t target (m.latest kind)

/-- **A smooth epoch sets the stores right.** -/
theorem Run.recovered (run : Run p trigger t (.ended epoch)) (hs : Smooth m t)
    (follows : Follows start t w) : Recovered p m t epoch w := by
  have houtcome := run.smooth_outcome hs
  obtain ⟨m', stored, sels, hachieved⟩ := run.achieved houtcome
  obtain ⟨worker, e, he, hb⟩ := (hachieved.advertised m').2 rfl
  obtain rfl := (hs.succeeds worker e he).advertised m' hb
  have htracked : Tracked start t w := follows.tracked (u := []) (by simpa using run)
  refine ⟨houtcome, StoredVersions.eq_of_get fun kind => ?_, fun kind target ht =>
    hachieved.secured hs.looksWell ht⟩
  rw [hachieved.versions_eq htracked kind]
  cases kind <;> rfl

/-- **Whatever the stores hold, one epoch in which nothing goes wrong sets them right.** It cannot go
on for ever, it is never stuck, and when it is over the advertised versions are committed and every
target of them is cached. -/
theorem recovery (p : SyncPolicy) (trigger : Trigger) (m : Metadata) (start : World) :
    (∀ {t s}, Run p trigger t s → t.length ≤ longest p ∧ Acc (Situation.Later p) s) ∧
      (∀ {t s w}, Run p trigger t s → Smooth m t → Follows start t w →
        ∃ u epoch w', Run p trigger (t ++ u) (.ended epoch) ∧ Smooth m (t ++ u) ∧
          Follows start (t ++ u) w') ∧
      ∀ {t epoch w}, Run p trigger t (.ended epoch) → Smooth m t → Follows start t w →
        Recovered p m t epoch w := by
  refine ⟨fun run => ⟨run.length_le, ?_⟩, fun run hs follows => ?_, Run.recovered⟩
  · obtain ⟨n, hl, -⟩ := run.lasts
    exact hl.acc
  · obtain ⟨n, hl, -⟩ := run.lasts
    exact hs.continues hl run follows

/-- An epoch comes right although an earlier one has committed another version and has left behind an
entry that is not a payload. -/
theorem recovery_leftovers :
    let m : Metadata := ⟨⟨"2"⟩, ⟨"1"⟩⟩
    let key := FetchTarget.localization.key ⟨"1"⟩
    let cache := MemoryCache.empty.write 0 key (.string "half") (.seconds 60)
    ∃ t epoch w, Run .default .manual t (.ended epoch) ∧ Smooth m t ∧
      Follows ⟨5, cache, ⟨some ⟨"1"⟩, some ⟨"1"⟩⟩, []⟩ t w ∧ Recovered .default m t epoch w := by
  intro m key cache
  obtain ⟨-, continues, recovered⟩ := recovery .default .manual m
    ⟨5, cache, ⟨some ⟨"1"⟩, some ⟨"1"⟩⟩, []⟩
  obtain ⟨t, epoch, w, run, smooth, follows⟩ := continues .start ⟨rfl, by simp⟩ .start
  exact ⟨t, epoch, w, run, smooth, follows, recovered run smooth follows⟩

end Engine

end ContentSync
