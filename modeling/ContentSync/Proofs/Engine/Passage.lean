import ContentSync.Proofs.Engine.Asked
import Mathlib.Data.List.Nodup

/-!
# The passage of an epoch

What has been exchanged in an epoch that is over, part by part, and what it has called.

* `ends_checking_passage` — the parts of the check;
* `Passage` / `Run.passage` — the parts of an epoch that is over;
* `Sequel` / `Aftermath.sequel` — what follows a check that was told the versions;
* `Run.answered_all` — every request of an epoch that is over has been answered;
* `effects` / `Run.effects_eq` — what an epoch does to the stores, in order, is done by itself and not
  by its jobs;
* `nodup_of_ends_selectKinds` — no target is fetched twice.
-/

set_option autoImplicit false

namespace ContentSync

/-- What an epoch comes to when its check fails. -/
def Epoch.halted (e : Epoch) : Failure → Epoch
  | .cancelled => { e with cancelled := true }
  | f => { e with error := some f }

/-- A call that changes the stores. -/
def Call.isEffect : Call → Bool
  | write _ _ _ | commit _ _ | invalidate _ => true
  | metadata | fetch _ _ _ | player _ | versions | read _ | exist _ => false

namespace Engine

open Program

variable {p : SyncPolicy} {trigger : Trigger} {t : List Moment} {s : Situation} {epoch : Epoch}
  {h : List Exchange}

/-- The exchanges with which an epoch begins. -/
def opening (now : Timestamp) : List Exchange := [⟨.clock, now⟩, ⟨.publish .checking, ()⟩]

/-- The calls that have been answered in some exchanges. -/
def callsOf (h : List Exchange) : List Call := h.filterMap (·.request.call?)

@[simp] theorem callsOf_nil : callsOf [] = [] := rfl

@[simp] theorem callsOf_append (h k : List Exchange) :
    callsOf (h ++ k) = callsOf h ++ callsOf k := List.filterMap_append

@[simp] theorem callsOf_cancelAnswer (b : Bool) (h : List Exchange) :
    callsOf (cancelAnswer b :: h) = callsOf h := rfl

@[simp] theorem callsOf_call (c : Call) (limit : Duration) (a : Option (Except Failure c.Answer))
    (h : List Exchange) : callsOf (⟨.call c limit, a⟩ :: h) = c :: callsOf h := rfl

@[simp] theorem callsOf_publish (phase : Phase) (h : List Exchange) :
    callsOf (⟨.publish phase, ()⟩ :: h) = callsOf h := rfl

@[simp] theorem callsOf_opening (now : Timestamp) : callsOf (opening now) = [] := rfl

theorem callsOf_eq_nil (hh : ∀ e ∈ h, e.request.call? = none) : callsOf h = [] :=
  List.filterMap_eq_nil_iff.2 hh

/-! ## The parts of the check -/

/-- The parts of a check. -/
inductive CheckPassage (p : SyncPolicy) (trigger : Trigger) (h : List Exchange) : Checked → Prop
  | failed {now : Timestamp} {c : List Exchange} {f : Failure} (split : h = opening now ++ c)
    (checked : (check p).Ends c (.error f)) :
    CheckPassage p trigger h (.stopped ((Epoch.start trigger now).halted f))
  | idle {now : Timestamp} {c k : List Exchange} {m : Metadata} {stored : StoredVersions}
    (split : h = opening now ++ (c ++ k)) (checked : (check p).Ends c (.ok (m, stored)))
    (surveyed : (selectKinds p m stored DataKind.all).Ends k []) :
    CheckPassage p trigger h (.stopped (.start trigger now))
  | ready {now : Timestamp} {c k : List Exchange} {m : Metadata} {stored : StoredVersions}
    {sels : List Selection} (split : h = opening now ++ (c ++ k))
    (checked : (check p).Ends c (.ok (m, stored)))
    (surveyed : (selectKinds p m stored DataKind.all).Ends k sels) (ne_nil : sels ≠ []) :
    CheckPassage p trigger h (.ready { Epoch.start trigger now with
      kinds := sels.map Selection.report } (sels.flatMap Selection.jobs))

theorem ends_checking_passage {checked : Checked} (hr : (checking p trigger).Ends h checked) :
    CheckPassage p trigger h checked := by
  simp only [checking, ends_bind, ends_request] at hr
  obtain ⟨_, _, now, rfl, rfl, _, _, _, rfl, rfl, c, _, result, rfl, hcheck, hr⟩ := hr
  rcases result with f | ⟨m, stored⟩
  · have hfailed : CheckPassage p trigger (opening now ++ c)
        (.stopped ((Epoch.start trigger now).halted f)) := .failed rfl hcheck
    cases f
    all_goals
      simp only [ends_pure] at hr
      obtain ⟨rfl, rfl⟩ := hr
      simpa [opening, Epoch.halted] using hfailed
  · simp only [ends_bind] at hr
    obtain ⟨k, _, sels, rfl, hsels, hr⟩ := hr
    by_cases hempty : sels.isEmpty
    · simp only [hempty, if_true, ends_pure] at hr
      obtain ⟨rfl, rfl⟩ := hr
      obtain rfl := List.isEmpty_iff.1 hempty
      exact .idle (by simp [opening]) hcheck hsels
    · simp only [hempty, Bool.false_eq_true, if_false, ends_pure] at hr
      obtain ⟨rfl, rfl⟩ := hr
      exact .ready (by simp [opening]) hcheck hsels (by simpa using hempty)

/-! ## The parts of an epoch -/

/-- What has been exchanged after the check of an epoch and before its conclusion, and what the epoch
has come to. -/
inductive Aftermath (p : SyncPolicy) (t : List Moment) (e : Epoch) :
    Except Failure (Metadata × StoredVersions) → List Exchange → Epoch → Prop
  | failed (f : Failure) (selected : selections t = []) :
    Aftermath p t e (.error f) [] (e.halted f)
  | idle {m : Metadata} {stored : StoredVersions} {k : List Exchange}
    (surveyed : (selectKinds p m stored DataKind.all).Ends k []) (selected : selections t = []) :
    Aftermath p t e (.ok (m, stored)) k e
  | written {m : Metadata} {stored : StoredVersions} {k l : List Exchange}
    {sels : List Selection} {results : List Fetched} {cancelled : Bool} {kinds : List KindReport}
    (surveyed : (selectKinds p m stored DataKind.all).Ends k sels) (ne_nil : sels ≠ [])
    (selected : selections t = [sels.flatMap Selection.jobs])
    (fetched : Results p t (sels.flatMap Selection.jobs) results)
    (processed : (processKinds p results (sels.map Selection.report)).Ends l kinds) :
    Aftermath p t e (.ok (m, stored))
      (k ++ cancelAnswer cancelled :: ⟨.publish .writing, ()⟩ :: l)
      { e with kinds := kinds, cancelled := cancelled }

/-- How an epoch that is over has gone. -/
inductive Passage (p : SyncPolicy) (trigger : Trigger) (t : List Moment) : Epoch → Prop
  | intro {began ceased : Timestamp} {c rest last : List Exchange}
    {result : Except Failure (Metadata × StoredVersions)} {e : Epoch}
    (split : exchanges .epoch t = opening began ++ (c ++ (rest ++ last)))
    (checked : (check p).Ends c result)
    (aftermath : Aftermath p t (.start trigger began) result rest e)
    (silent : callsOf last = []) : Passage p trigger t (e.finalize ceased)

/-- No call is made in the conclusion of an epoch. -/
theorem callsOf_concluding {e finished : Epoch} (hr : (concluding e).Ends h finished) :
    callsOf h = [] := by
  refine callsOf_eq_nil fun d hd => ?_
  obtain ⟨_, hasks⟩ := Path.asks_of_mem hr hd
  have hends := asks_concluding hasks
  cases hd : d.request <;> rw [hd] at hends <;> first | rfl | cases hends

/-- **The parts of an epoch that is over.** -/
theorem Run.passage (run : Run p trigger t (.ended epoch)) : Passage p trigger t epoch := by
  obtain ⟨-, hfinished⟩ := run.finished
  cases hfinished with
  | @stopped h last e split checked unselected concluded =>
    obtain ⟨ceased, rfl⟩ := ends_concluding concluded
    have silent := callsOf_concluding concluded
    cases ends_checking_passage checked with
    | @failed now c f heq hcheck =>
      have hsplit : exchanges .epoch t = opening now ++ (c ++ ([] ++ last)) := by
        simp [split, heq]
      exact .intro hsplit hcheck (.failed f unselected) silent
    | @idle now c k m stored heq hcheck hsurveyed =>
      have hsplit : exchanges .epoch t = opening now ++ (c ++ (k ++ last)) := by
        simp [split, heq]
      exact .intro hsplit hcheck (.idle hsurveyed unselected) silent
  | @written h l last e written jobs results split checked selected fetched wrote concluded =>
    obtain ⟨ceased, rfl⟩ := ends_concluding concluded
    obtain ⟨cancelled, l, kinds, rfl, hprocessed, rfl⟩ := ends_writing wrote
    have silent := callsOf_concluding concluded
    cases ends_checking_passage checked with
    | @ready now c k m stored sels heq hcheck hsurveyed hne =>
      have hsplit : exchanges .epoch t = opening now ++ (c ++ ((k ++
          cancelAnswer cancelled :: ⟨.publish .writing, ()⟩ :: l) ++ last)) := by
        simp [split, heq]
      exact .intro hsplit hcheck (.written hsurveyed hne selected fetched hprocessed) silent

/-- Where nothing is selected, no job exchanges anything. -/
theorem Run.exchanges_job_of_unselected (run : Run p trigger t s) (selected : selections t = [])
    (n : Nat) : exchanges (.job n) t = [] := by
  rw [List.eq_nil_iff_forall_not_mem]
  intro e he
  obtain ⟨t₁, t₂, rfl⟩ := List.append_of_mem (mem_exchanges.1 he)
  obtain ⟨s₁, run₁, hfacing⟩ := run.faced (.answered e.answer)
  cases hfacing with
  | checking epoch => cases epoch
  | writing epoch => cases epoch
  | fetching =>
    cases run₁.accounts with
    | fetching _ _ selected' => simp [selected'] at selected

/-- What follows a check that was told the versions: a survey of the kinds, jobs, and the processing of
what was selected. An epoch that has nothing to fetch processes nothing. -/
structure Sequel (p : SyncPolicy) (t : List Moment) (m : Metadata) (stored : StoredVersions)
    (rest survey work : List Exchange) (sels : List Selection) (results : List Fetched)
    (kinds : List KindReport) : Prop where
  surveyed : (selectKinds p m stored DataKind.all).Ends survey sels
  fetched : Results p t (sels.flatMap Selection.jobs) results
  processed : (processKinds p results (sels.map Selection.report)).Ends work kinds
  survey_subset : survey ⊆ rest
  work_subset : work ⊆ rest
  callsOf_eq : callsOf rest = callsOf survey ++ callsOf work

/-- A survey changes nothing in the stores. -/
theorem effects_of_ends_selectKinds {m : Metadata} {stored : StoredVersions} {ks : List DataKind}
    {sels : List Selection} (hr : (selectKinds p m stored ks).Ends h sels) :
    (callsOf h).filter Call.isEffect = [] := by
  rw [List.filter_eq_nil_iff]
  intro c hc
  obtain ⟨e, he, hrequest⟩ := List.mem_filterMap.1 hc
  obtain ⟨_, hasks⟩ := Path.asks_of_mem hr he
  obtain ⟨_, -, _, -, heq⟩ := asks_selectKinds hasks
  rw [heq] at hrequest
  obtain rfl := Option.some.inj hrequest
  exact Bool.false_ne_true

theorem Sequel.effects_eq {m : Metadata} {stored : StoredVersions}
    {rest survey work : List Exchange} {sels : List Selection} {results : List Fetched}
    {kinds : List KindReport} (hs : Sequel p t m stored rest survey work sels results kinds) :
    (callsOf rest).filter Call.isEffect = (callsOf work).filter Call.isEffect := by
  rw [hs.callsOf_eq, List.filter_append, effects_of_ends_selectKinds hs.surveyed, List.nil_append]

theorem Aftermath.sequel {e e' : Epoch} {m : Metadata} {stored : StoredVersions}
    {rest : List Exchange} (ha : Aftermath p t e (.ok (m, stored)) rest e')
    (run : Run p trigger t s) (hkinds : e.kinds = []) :
    ∃ survey work sels results,
      Sequel p t m stored rest survey work sels results e'.kinds := by
  cases ha with
  | idle surveyed selected =>
    have hprocessed : (processKinds p [] (([] : List Selection).map Selection.report)).Ends [] e.kinds :=
      ends_pure.2 ⟨rfl, hkinds⟩
    exact ⟨rest, [], [], [], surveyed,
      ⟨rfl, fun i result hi => by simp at hi,
        fun n _ => run.exchanges_job_of_unselected selected n⟩, hprocessed, fun _ => id,
      List.nil_subset _, by simp⟩
  | @written _ _ k l sels results _ _ surveyed _ _ fetched processed =>
    exact ⟨k, l, sels, results, surveyed, fetched, processed, List.subset_append_left ..,
      fun d hd => by simp [hd], by simp⟩

/-- Apart from its kinds an epoch only notes whether it counts as cancelled. -/
theorem Aftermath.epoch_eq {e e' : Epoch} {m : Metadata} {stored : StoredVersions}
    {rest : List Exchange} (ha : Aftermath p t e (.ok (m, stored)) rest e') :
    e' = e ∨ ∃ c, cancelAnswer c ∈ rest ∧ e' = { e with kinds := e'.kinds, cancelled := c } := by
  cases ha with
  | idle => exact .inl rfl
  | @written _ _ _ _ _ _ cancelled => exact .inr ⟨cancelled, by simp, rfl⟩

/-! ## Requests of jobs -/

/-- What a job waits for. -/
def Situation.jobPending (n : Nat) : Situation → List Request
  | fetching _ _ slots => slots.flatMap fun slot => if slot.1 = n then slot.2.pending else []
  | checking _ | writing _ => []

/-- Of the requests of a job, only the pending one has no answer. -/
theorem Run.requests_job (run : Run p trigger t s) (n : Nat) :
    requests (.job n) t = (exchanges (.job n) t).map (·.request) ++ s.jobPending n := by
  induction run with
  | start => rfl
  | startCancelled => rfl
  | cancel _ _ _ ih => simpa using ih
  | @step t s s' o run hs ih =>
    cases hs with
    | check hth =>
      obtain ⟨hexchanges, hrequests⟩ := hth.other (w := .job n) nofun
      simpa [hexchanges, hrequests, Situation.jobPending] using ih
    | stop => simpa [Situation.jobPending] using ih
    | select => simpa [Situation.jobPending] using ih
    | launch => simpa [Situation.jobPending] using ih
    | land => simpa [Situation.jobPending] using ih
    | @collect epoch f slots hover =>
      cases run.accounts with
      | fetching _ _ _ launched =>
        -- Nothing is under way any more.
        have hslots : slots = [] := by
          have hnumbers := launched.numbers
          simp only [Fetching.isOver, Bool.and_eq_true, List.isEmpty_iff] at hover
          rw [hover.2] at hnumbers
          exact List.map_eq_nil_iff.1 hnumbers
        simpa [hslots, Situation.jobPending] using ih
    | write hth =>
      obtain ⟨hexchanges, hrequests⟩ := hth.other (w := .job n) nofun
      simpa [hexchanges, hrequests, Situation.jobPending] using ih
    | @fetch epoch f before after number th th' m hth =>
      by_cases hn : number = n
      · subst hn
        cases run.accounts with
        | fetching _ _ _ launched =>
          have hothers : ∀ part ⊆ before ++ after,
              (part.flatMap fun slot => if slot.1 = number then slot.2.pending else []) = [] := by
            intro part hpart
            rw [List.flatMap_eq_nil_iff]
            intro slot hslot
            exact if_neg (launched.number_ne (hpart hslot))
          have hbefore := hothers before (List.subset_append_left ..)
          have hafter := hothers after (List.subset_append_right ..)
          simp only [Situation.jobPending, List.flatMap_append, List.flatMap_cons, hbefore,
            hafter, if_true, List.nil_append, List.append_nil] at ih ⊢
          cases hth with
          | ask r next => simpa using ih
          | answer r next a ha => simp [ih]
      · obtain ⟨hexchanges, hrequests⟩ :=
          hth.other (w := .job n) fun heq => hn (Worker.job.inj heq)
        simpa [hexchanges, hrequests, Situation.jobPending, hn] using ih

/-- **Every request of an epoch that is over has been answered.** -/
theorem Run.answered_all (run : Run p trigger t (.ended epoch)) (worker : Worker) :
    requests worker t = (exchanges worker t).map (·.request) := by
  cases worker with
  | epoch => exact run.finished.1
  | job n => simpa [Situation.jobPending, Situation.ended] using run.requests_job n

/-! ## Effects -/

/-- The calls that change the stores, in order. -/
def effects (t : List Moment) : List Call := (calls t).filter Call.isEffect

/-- Calls of a sort are those of one worker when nobody else makes such calls. -/
theorem filter_calls_eq {w : Worker} {sort : Call → Bool}
    (hothers : ∀ v r, Moment.asked v r ∈ t → v ≠ w → ∀ c, r.call? = some c → sort c = false) :
    (calls t).filter sort = ((requests w t).filterMap Request.call?).filter sort := by
  induction t with
  | nil => rfl
  | cons m t ih =>
    have hrest := ih fun v r hr => hothers v r (List.mem_cons_of_mem _ hr)
    rw [← List.singleton_append, calls_append, List.filter_append, hrest, requests_append,
      List.filterMap_append, List.filter_append]
    congr 1
    cases m with
    | asked v r =>
      by_cases hv : v = w
      · cases hr : r.call? <;> simp [calls, hv, hr]
      · have hnone := hothers v r List.mem_cons_self hv
        cases hr : r.call? with
        | none => simp [calls, hv, hr]
        | some c => simp [calls, hv, hr, hnone c hr]
    | cancelled | answered | selected | progressed => rfl

/-- **What an epoch does to the stores, it does in its own exchanges.** -/
theorem Run.effects_eq (run : Run p trigger t (.ended epoch)) :
    effects t = (callsOf (exchanges .epoch t)).filter Call.isEffect := by
  have hjobs : ∀ v r, Moment.asked v r ∈ t → v ≠ .epoch → ∀ c, r.call? = some c →
      c.isEffect = false := by
    intro v r hr hv c hc
    cases v with
    | epoch => exact absurd rfl hv
    | job n =>
      obtain ⟨t₁, t₂, rfl⟩ := List.append_of_mem hr
      obtain ⟨job, hasks⟩ := run.asked_job .asked
      obtain ⟨rfl | ⟨length, rfl⟩, -⟩ := asks_fetchOne hasks
      · obtain rfl := Option.some.inj hc
        rfl
      · cases hc
  rw [effects, filter_calls_eq hjobs, run.answered_all .epoch, List.filterMap_map]
  rfl

/-- What an epoch does to the stores is done in its check and in what follows it. -/
theorem Run.effects_eq_of_split (run : Run p trigger t (.ended epoch)) {began : Timestamp}
    {c rest last : List Exchange}
    (split : exchanges .epoch t = opening began ++ (c ++ (rest ++ last)))
    (silent : callsOf last = []) :
    effects t = (callsOf c).filter Call.isEffect ++ (callsOf rest).filter Call.isEffect := by
  rw [run.effects_eq, split]
  simp only [callsOf_append, callsOf_opening, silent, List.append_nil, List.nil_append,
    List.filter_append]

/-! ## Targets -/

theorem kind_of_ends_selectKinds {m : Metadata} {stored : StoredVersions} {k : List Exchange}
    {sels : List Selection} (hr : (selectKinds p m stored DataKind.all).Ends k sels) :
    ∀ sel ∈ sels, ∀ target ∈ sel.targets, target.kind = sel.kind :=
  fun sel hsel target ht => SyncPolicy.kind_of_mem_targets
    (((ends_selectKinds (by decide) hr).2 sel hsel).sublist.subset ht)

/-- **No target is fetched twice.** -/
theorem nodup_of_ends_selectKinds {m : Metadata} {stored : StoredVersions} {k : List Exchange}
    {sels : List Selection} (hr : (selectKinds p m stored DataKind.all).Ends k sels) :
    ((sels.flatMap Selection.jobs).map (·.1)).Nodup := by
  obtain ⟨hkinds, hfaithful⟩ := ends_selectKinds (by decide) hr
  have hnodup : (sels.map (·.kind)).Nodup := hkinds.nodup (by decide)
  have hmap : (sels.flatMap Selection.jobs).map (·.1) = sels.flatMap (·.targets) := by
    rw [List.map_flatMap]
    simp [Selection.jobs, Function.comp_def]
  rw [hmap, List.nodup_flatMap]
  refine ⟨fun sel hsel => (hfaithful sel hsel).sublist.nodup (p.nodup_targets _), ?_⟩
  have hpairwise : sels.Pairwise fun a b => a.kind ≠ b.kind := List.pairwise_map.1 hnodup
  refine hpairwise.imp_of_mem fun {a b} ha hb hne target hta htb => hne ?_
  rw [← kind_of_ends_selectKinds hr a ha target hta, kind_of_ends_selectKinds hr b hb target htb]

/-- The jobs of an epoch that is over fetch different targets. -/
theorem Run.nodup_selected (run : Run p trigger t (.ended epoch)) {jobs : List Job}
    (selected : selections t = [jobs]) : (jobs.map (·.1)).Nodup := by
  obtain @⟨_, _, _, _, _, _, _, -, -, aftermath, -⟩ := run.passage
  cases aftermath with
  | failed _ unselected | idle _ unselected =>
    rw [unselected] at selected
    cases selected
  | written surveyed _ selected' =>
    rw [selected'] at selected
    obtain rfl := (List.cons.inj selected).1
    exact nodup_of_ends_selectKinds surveyed

end Engine

end ContentSync
