import ContentSync.Proofs.Engine.Account
import ContentSync.Proofs.Engine.Calls
import ContentSync.Proofs.Engine.CheckOutcome
import ContentSync.Proofs.Engine.ReportPath

/-!
# Where requests are made

What is known of a history when one of its workers makes a request, and when the epoch is over.

* `Run.admits` — answers that tell of a cancellation are true;
* `Run.asked_job` — a job is a path through its own fetch;
* `Run.asked_epoch` — a request of the epoch belongs to the check, to writing or to the conclusion;
* `Run.asked_kind` — a call that belongs to a kind is made while that kind is processed;
* `Run.finished` — an epoch that is over has stopped after the check or has written.
-/

set_option autoImplicit false

namespace ContentSync

/-- The calls that are made while a kind is processed. -/
def Call.isOfKind : Call → Bool
  | read _ | write _ _ _ | commit _ _ | invalidate _ => true
  | metadata | fetch _ _ _ | player _ | versions | exist _ => false

/-- The calls of the check. -/
def Call.isOfCheck : Call → Bool
  | metadata | versions | exist _ => true
  | fetch _ _ _ | player _ | read _ | write _ _ _ | commit _ _ | invalidate _ => false

/-- A call of the check is not made for a kind. -/
theorem Call.isOfKind_of_isOfCheck {c : Call} (hc : c.isOfCheck = true) : c.isOfKind = false := by
  cases c <;> simp_all [Call.isOfCheck, Call.isOfKind]

theorem Call.isFetch_of_isOfCheck {c : Call} (hc : c.isOfCheck = true) : c.isFetch = false := by
  cases c <;> simp_all [Call.isOfCheck, Call.isFetch]

namespace Engine

open Program

variable {p : SyncPolicy} {trigger : Trigger} {t u : List Moment} {s : Situation}

/-- **Answers that tell of a cancellation are true.** -/
theorem Run.admits {w : Worker} {e : Exchange}
    (run : Run p trigger (t ++ .answered w e :: u) s) :
    e.request.Admits (wasCancelled t) e.answer := by
  obtain ⟨s₁, -, ⟨heq, -⟩ | ⟨s₂, hs⟩⟩ := run.split
  · cases heq
  cases hs with
  | check hth => cases hth with | answer _ _ _ ha => exact ha
  | fetch hth => cases hth with | answer _ _ _ ha => exact ha
  | write hth => cases hth with | answer _ _ _ ha => exact ha

/-- Who looks whether the epoch is cancelled is told so. -/
theorem Run.cancelled_eq {w : Worker} {b : Bool}
    (run : Run p trigger (t ++ .answered w (cancelAnswer b) :: u) s) : b = wasCancelled t :=
  run.admits

theorem wasCancelled_of_showsCancellation {e : Exchange} {c : Bool}
    (he : e.showsCancellation = true) (ha : e.request.Admits c e.answer) : c = true := by
  obtain ⟨r, a⟩ := e
  cases r with
  | attempt c limit =>
    obtain rfl := showsCancellation_attempt.1 he
    exact ha
  | pause length => exact ha he
  | publish | isCancelled | clock | announce | remember | wait | call | compute => cases he

/-- A request of a job is one of its fetch. -/
theorem Run.asked_job {m : Moment} {n : Nat} {r : Request} (run : Run p trigger (t ++ m :: u) s)
    (hm : m.Faces (.job n) r) : ∃ job, (fetchOne p job).Asks (exchanges (.job n) t) r := by
  obtain ⟨s₁, run₁, hs₁⟩ := run.faced hm
  cases hs₁ with
  | checking epoch => cases epoch
  | writing epoch => cases epoch
  | fetching job mem next program_eq =>
    cases job
    cases run₁.accounts with
    | fetching checked answered selected launched =>
      obtain ⟨job, -, hpath⟩ := launched.threads _ mem
      rw [program_eq] at hpath
      exact ⟨job, next, hpath⟩

/-- What is known of the attempts of a job. -/
theorem asks_fetchOne {job : Job} {h : List Exchange} {r : Request}
    (hr : (fetchOne p job).Asks h r) :
    (r = .attempt (.fetch job.1 job.2 p.unzip) p.fetchTimeout ∨ ∃ length, r = .pause length) ∧
      ∀ e ∈ h, e.showsCancellation = false := by
  simp only [fetchOne, asks_bind, asks_pure, and_false, exists_false, or_false] at hr
  exact asks_withRetry hr

theorem ends_fetchOne_ok_iff {job : Job} {h : List Exchange} {result : Fetched}
    (hr : (fetchOne p job).Ends h result) (payload : Json) :
    result.target = job.1 ∧ (result.payload = .ok payload ↔
      ⟨.attempt (.fetch job.1 job.2 p.unzip) p.fetchTimeout, .answered (.ok payload)⟩ ∈ h) := by
  simp only [fetchOne, ends_bind, ends_pure] at hr
  obtain ⟨k, _, ⟨n, x⟩, rfl, hk, rfl, rfl⟩ := hr
  refine ⟨rfl, ?_⟩
  rw [List.append_nil]
  exact ends_withRetry_ok_iff hk payload

/-- What has led an epoch to the point where it writes, and what it has done since. -/
structure Writes (p : SyncPolicy) (trigger : Trigger) (t : List Moment) (h k : List Exchange)
    (epoch : Epoch) (jobs : List Job) (results : List Fetched) : Prop where
  split : exchanges .epoch t = h ++ k
  checked : (checking p trigger).Ends h (.ready epoch jobs)
  selected : selections t = [jobs]
  fetched : Results p t jobs results
  underway : ∃ rest, (writing p epoch results).Path k rest

/-- Where the epoch stands when it makes a request. -/
inductive Asked (p : SyncPolicy) (trigger : Trigger) (t : List Moment) (r : Request) : Prop
  | checking (asks : (checking p trigger).Asks (exchanges .epoch t) r)
  | writing {h k : List Exchange} {epoch : Epoch} {jobs : List Job} {results : List Fetched}
    (writes : Writes p trigger t h k epoch jobs results)
    (asks : (writing p epoch results).Asks k r)
    (last : Balanced t →
      k = [] ∨ ∃ e, k.getLast? = some e ∧ t.getLast? = some (.answered .epoch e))
  | concluding (ends : r.isOfConclusion = true)

/-- **Every request of the epoch belongs to one of its parts.** -/
theorem Run.asked_epoch {m : Moment} {r : Request} (run : Run p trigger (t ++ m :: u) s)
    (hm : m.Faces .epoch r) : Asked p trigger t r := by
  obtain ⟨s₁, run₁, hs₁⟩ := run.faced hm
  cases hs₁ with
  | fetching job => cases job
  | checking epoch next program_eq =>
    cases run₁.accounts with
    | checking thread =>
      have hpath := thread.path
      rw [program_eq] at hpath
      exact .checking ⟨next, hpath⟩
  | writing epoch next program_eq =>
    cases run₁.accounts with
    | concluding split checked unselected thread =>
      have hpath := thread.path
      rw [program_eq] at hpath
      exact .concluding (asks_concluding ⟨next, hpath⟩)
    | writing split checked selected fetched thread =>
      have hpath := thread.path
      rw [program_eq] at hpath
      obtain ⟨next', hpath⟩ | ⟨_, l, _, rfl, -, hl⟩ := asks_bind.1 ⟨next, hpath⟩
      · exact .writing ⟨split, checked, selected, fetched, _, hpath⟩ ⟨next', hpath⟩
          thread.last_of_balanced
      · exact .concluding (asks_concluding hl)

/-- When the epoch makes a request, all earlier ones have been answered. -/
theorem Run.balanced_of_asked {r : Request} (run : Run p trigger (t ++ .asked .epoch r :: u) s) :
    Balanced t := by
  obtain ⟨s₁, run₁, ⟨heq, -⟩ | ⟨s₂, hs⟩⟩ := run.split
  · cases heq
  cases hs with
  | fetch hth => cases hth
  | check hth =>
    cases hth with
    | ask => cases run₁.accounts with | checking thread => exact thread.balanced
  | write hth =>
    cases hth with
    | ask =>
      cases run₁.accounts with
      | concluding split checked unselected thread => exact thread.balanced
      | writing split checked selected fetched thread => exact thread.balanced

/-! ## Writing -/

/-- What an epoch asks for while it writes. -/
def WritingRequest (e : Epoch) (r : Request) : Prop :=
  r = .isCancelled ∨ r = .publish .writing ∨ ∃ kind ∈ e.kinds, r.Concerns kind.kind

theorem asks_writing_request {e : Epoch} {fetched : List Fetched} {k : List Exchange} {r : Request}
    (hr : (writing p e fetched).Asks k r) : WritingRequest e r := by
  obtain ⟨-, rfl⟩ | ⟨_, -, rfl⟩ | ⟨_, _, -, hr⟩ := asks_writing hr
  · exact .inl rfl
  · exact .inr (.inl rfl)
  · exact .inr (.inr (asks_processKinds_concerns hr))

/-- A job makes no call but its fetch. -/
theorem Run.fetch_of_answered (run : Run p trigger t s) {n : Nat} {e : Exchange}
    (he : Moment.answered (.job n) e ∈ t) {c : Call} (hc : e.request.call? = some c) :
    ∃ target v, c = .fetch target v p.unzip := by
  obtain ⟨t₁, t₂, rfl⟩ := List.append_of_mem he
  obtain ⟨job, hasks⟩ := run.asked_job (.answered e.answer)
  obtain ⟨heq | ⟨length, heq⟩, -⟩ := asks_fetchOne hasks
  · rw [heq] at hc
    exact ⟨job.1, job.2, (Option.some.inj hc).symm⟩
  · rw [heq] at hc
    cases hc

/-- What is brought by another call was brought to the epoch itself. -/
theorem Run.epoch_of_brought (run : Run p trigger t s) {c : Call} {x : c.Answer}
    (hb : Brought t c x) (hc : c.isFetch = false) : ∃ e ∈ exchanges .epoch t, e.Brings c x := by
  obtain ⟨w, e, he, hb⟩ := hb
  cases w with
  | epoch => exact ⟨e, mem_exchanges.2 he, hb⟩
  | job n =>
    obtain ⟨target, v, rfl⟩ := run.fetch_of_answered he hb.call?
    cases hc

/-- What is answered to the epoch belongs to one of its parts. -/
theorem Run.answered_epoch (run : Run p trigger t s) {e : Exchange} (he : e ∈ exchanges .epoch t) :
    e.request.IsOfCheck p ∨ (∃ epoch, WritingRequest epoch e.request) ∨
      e.request.isOfConclusion = true := by
  obtain ⟨t₁, t₂, rfl⟩ := List.append_of_mem (mem_exchanges.1 he)
  cases run.asked_epoch (.answered e.answer) with
  | checking asks => exact .inl (asks_checking asks)
  | writing writes asks => exact .inr (.inl ⟨_, asks_writing_request asks⟩)
  | concluding ends => exact .inr (.inr ends)

/-- While it writes, an epoch makes no call of the check. -/
theorem WritingRequest.isOfCheck_eq {e : Epoch} {r : Request} (hr : WritingRequest e r) {c : Call}
    (hc : r.call? = some c) : c.isOfCheck = false := by
  obtain rfl | rfl | ⟨_, -, hconcerns⟩ := hr
  · cases hc
  · cases hc
  · cases r <;> cases hc <;> cases c <;> first | rfl | exact hconcerns.elim

/-- **What the check was told is all that the epoch is ever told about it**, when it has made no call
of the check since. -/
theorem Run.brought_iff_of_checked (run : Run p trigger t s) {h k : List Exchange}
    (split : exchanges .epoch t = h ++ k) {q : Program Checked}
    (checked : (checking p trigger).Path h q)
    (later : ∀ e ∈ k, ∀ c, e.request.call? = some c → c.isOfCheck = false) :
    (∀ m, Brought t .metadata m ↔ advertisement p m ∈ h) ∧
    (∀ stored, Brought t .versions stored ↔ committal p stored ∈ h) ∧
    ∀ key found, Brought t (.exist key) found ↔
      ⟨.call (.exist key) p.ioTimeout, some (.ok found)⟩ ∈ h := by
  have hcheck : ∀ {c : Call} {x : c.Answer}, c.isOfCheck = true → Brought t c x →
      ∃ e ∈ h, e.request.IsOfCheck p ∧ e.Brings c x := by
    intro c x hc hb
    obtain ⟨e, he, hb⟩ := run.epoch_of_brought hb (Call.isFetch_of_isOfCheck hc)
    rw [split, List.mem_append] at he
    obtain he | he := he
    · obtain ⟨_, hasks⟩ := Path.asks_of_mem checked he
      exact ⟨e, he, asks_checking hasks, hb⟩
    · rw [later e he c hb.call?] at hc
      cases hc
  have hback : ∀ {c : Call} {x : c.Answer} {e : Exchange}, e ∈ h → e.Brings c x → Brought t c x := by
    intro c x e he hb
    refine ⟨.epoch, e, mem_exchanges.1 ?_, hb⟩
    rw [split]
    exact List.mem_append_left _ he
  refine ⟨fun m => ⟨fun hb => ?_, fun hm => hback hm (.attempt _)⟩,
    fun stored => ⟨fun hb => ?_, fun hm => hback hm (.call _)⟩,
    fun key found => ⟨fun hb => ?_, fun hm => hback hm (.call _)⟩⟩
  · obtain ⟨e, he, hlimit, hb⟩ := hcheck rfl hb
    cases hb with
    | wait | call => exact hlimit.elim
    | attempt limit =>
      obtain rfl : limit = p.fetchTimeout := hlimit
      exact he
  · obtain ⟨e, he, hlimit, hb⟩ := hcheck rfl hb
    cases hb with
    | wait | attempt => exact hlimit.elim
    | call limit =>
      obtain rfl : limit = p.ioTimeout := hlimit
      exact he
  · obtain ⟨e, he, hlimit, hb⟩ := hcheck rfl hb
    cases hb with
    | wait | attempt => exact hlimit.elim
    | call limit =>
      obtain rfl : limit = p.ioTimeout := hlimit
      exact he

section

variable {h k : List Exchange} {epoch : Epoch} {jobs : List Job} {results : List Fetched}

/-- An exchange of the epoch belongs to the check or to writing. -/
theorem Writes.cases_of_mem (hw : Writes p trigger t h k epoch jobs results) {e : Exchange}
    (he : e ∈ exchanges .epoch t) :
    (e ∈ h ∧ e.request.IsOfCheck p) ∨ (e ∈ k ∧ WritingRequest epoch e.request) := by
  rw [hw.split, List.mem_append] at he
  refine he.imp (fun he => ⟨he, ?_⟩) (fun he => ⟨he, ?_⟩)
  · obtain ⟨_, hasks⟩ := Path.asks_of_mem hw.checked he
    exact asks_checking hasks
  · obtain ⟨_, hpath⟩ := hw.underway
    obtain ⟨_, hasks⟩ := Path.asks_of_mem hpath he
    exact asks_writing_request hasks

/-- What the check was told is all that the epoch is ever told about it. -/
theorem Writes.brought_iff (hw : Writes p trigger t h k epoch jobs results)
    (run : Run p trigger t s) :
    (∀ m, Brought t .metadata m ↔ advertisement p m ∈ h) ∧
    (∀ stored, Brought t .versions stored ↔ committal p stored ∈ h) ∧
    ∀ key found, Brought t (.exist key) found ↔
      ⟨.call (.exist key) p.ioTimeout, some (.ok found)⟩ ∈ h := by
  refine run.brought_iff_of_checked hw.split hw.checked fun e he c hc => ?_
  obtain ⟨_, hpath⟩ := hw.underway
  obtain ⟨_, hasks⟩ := Path.asks_of_mem hpath he
  exact (asks_writing_request hasks).isOfCheck_eq hc

theorem Writes.nodup_kinds (hw : Writes p trigger t h k epoch jobs results) :
    (epoch.kinds.map (·.kind)).Nodup := by
  obtain ⟨m, stored, sels, hselected⟩ := ends_checking_ready hw.checked
  exact hselected.nodup_kinds

/-! ## Processing a kind -/

/-- A kind is being processed; those before it are done. -/
inductive Processing (p : SyncPolicy) (trigger : Trigger) (t : List Moment) (epoch : Epoch)
    (jobs : List Job) (results : List Fetched) (r : KindReport) (l : List Exchange) : Prop
  | intro {h k : List Exchange} {c : Bool} {before after reports : List KindReport}
    (writes : Writes p trigger t h (cancelAnswer c :: ⟨.publish .writing, ()⟩ :: (k ++ l)) epoch
      jobs results)
    (kinds_eq : epoch.kinds = before ++ r :: after)
    (processed : (processKinds p results before).Ends k reports)

/-- **A call that is made while a kind is processed is made by the epoch, for that kind.** -/
theorem Run.asked_kind {m : Moment} {w : Worker} {q : Request} {c : Call}
    (run : Run p trigger (t ++ m :: u) s) (hm : m.Faces w q) (hq : q.call? = some c)
    (hc : c.isOfKind = true) :
    w = .epoch ∧ (∃ limit, q = .call c limit) ∧
      ∃ epoch jobs results r l, Processing p trigger t epoch jobs results r l ∧
        (processKind p results r).Asks l q ∧
        (Balanced t → ∀ e, l.getLast? = some e → t.getLast? = some (.answered .epoch e)) := by
  cases w with
  | job n =>
    obtain ⟨job, hasks⟩ := run.asked_job hm
    obtain ⟨rfl | ⟨length, rfl⟩, -⟩ := asks_fetchOne hasks
    · cases hq
      cases hc
    · cases hq
  | epoch =>
    refine ⟨rfl, ?_⟩
    cases run.asked_epoch hm with
    | checking asks =>
      have hcheck := asks_checking asks
      cases q <;> cases hq <;> cases c <;> first | exact hcheck.elim | cases hc
    | concluding ends => cases q <;> cases hq <;> cases ends
    | @writing h k epoch jobs results writes asks last =>
      obtain ⟨-, rfl⟩ | ⟨_, -, rfl⟩ | ⟨b, k, rfl, hasks⟩ := asks_writing asks
      · cases hq
      · cases hq
      obtain ⟨before, r, after, k, l, reports, heq, rfl, hbefore, hasks⟩ := asks_processKinds hasks
      refine ⟨?_, epoch, jobs, results, r, l, .intro writes heq hbefore, hasks, ?_⟩
      · have hconcerns := asks_processKind_concerns hasks
        cases q <;> cases hq <;> first | exact ⟨_, rfl⟩ | exact hconcerns.elim
      intro hbalanced e he
      obtain hnil | ⟨e', he', ht⟩ := last hbalanced
      · cases hnil
      rw [← List.cons_append, ← List.cons_append, List.getLast?_append, he] at he'
      rw [ht, ← Option.some.inj he']

/-- A call for a kind that has been made was made by the epoch, and answered when all its requests
were. -/
theorem Run.exchange_of_call (run : Run p trigger t s)
    (hbalanced : Balanced t) {c : Call}
    (hmem : c ∈ calls t) (hc : c.isOfKind = true) :
    ∃ e ∈ exchanges .epoch t, ∃ limit, e.request = .call c limit := by
  obtain ⟨t₁, w, q, t₂, rfl, hq⟩ := exists_of_mem_calls hmem
  obtain ⟨rfl, ⟨limit, rfl⟩, -⟩ := run.asked_kind .asked hq hc
  have hin : Request.call c limit ∈ requests .epoch (t₁ ++ .asked .epoch (.call c limit) :: t₂) :=
    mem_requests.2 (by simp)
  rw [show requests .epoch _ = _ from hbalanced, List.mem_map] at hin
  obtain ⟨e, he, heq⟩ := hin
  exact ⟨e, he, limit, heq⟩

end

/-- What has been answered to the epoch had been asked by it. -/
theorem Run.request_mem (run : Run p trigger t s) {e : Exchange} (he : e ∈ exchanges .epoch t) :
    e.request ∈ requests .epoch t := by
  have hmem : e.request ∈ (exchanges .epoch t).map (·.request) := List.mem_map_of_mem he
  cases run.accounts with
  | checking thread =>
    rw [thread.requests_eq]
    exact List.mem_append_left _ hmem
  | fetching checked answered =>
    rw [show requests .epoch t = _ from answered]
    exact hmem
  | concluding split checked unselected thread =>
    rw [thread.requests_eq]
    exact List.mem_append_left _ hmem
  | writing split checked selected fetched thread =>
    rw [thread.requests_eq]
    exact List.mem_append_left _ hmem

/-- A call that the epoch was answered had been made. -/
theorem Run.mem_calls_of_exchange (run : Run p trigger t s) {e : Exchange} {c : Call}
    (he : e ∈ exchanges .epoch t) (hc : e.request.call? = some c) : c ∈ calls t :=
  mem_calls.2 ⟨.epoch, e.request, mem_requests.1 (run.request_mem he), hc⟩

/-- What a call for a kind has brought was brought to the epoch itself. -/
theorem Run.exchange_of_brought (run : Run p trigger t s) {c : Call} {x : c.Answer}
    (hb : Brought t c x) (hc : c.isOfKind = true) :
    ∃ e ∈ exchanges .epoch t, e.Brings c x ∧ ∃ limit, e.request = .call c limit := by
  obtain ⟨w, e, he, hb⟩ := hb
  obtain ⟨t₁, t₂, rfl⟩ := List.append_of_mem he
  obtain ⟨rfl, hlimit, -⟩ := run.asked_kind (.answered e.answer) hb.call? hc
  exact ⟨e, mem_exchanges.2 he, hb, hlimit⟩

/-- A call for a kind that has brought something had been made. -/
theorem Run.mem_calls_of_brought (run : Run p trigger t s) {c : Call} {x : c.Answer}
    (hb : Brought t c x) (hc : c.isOfKind = true) : c ∈ calls t := by
  obtain ⟨e, he, hb, -⟩ := run.exchange_of_brought hb hc
  exact run.mem_calls_of_exchange he hb.call?

/-! ## The end of an epoch -/

/-- How an epoch has come to its end. -/
inductive Finished (p : SyncPolicy) (trigger : Trigger) (t : List Moment) (epoch : Epoch) : Prop
  | stopped {h k : List Exchange} {e : Epoch} (split : exchanges .epoch t = h ++ k)
    (checked : (checking p trigger).Ends h (.stopped e)) (unselected : selections t = [])
    (concluded : (concluding e).Ends k epoch)
  | written {h k l : List Exchange} {e written : Epoch} {jobs : List Job} {results : List Fetched}
    (split : exchanges .epoch t = h ++ (k ++ l))
    (checked : (checking p trigger).Ends h (.ready e jobs)) (selected : selections t = [jobs])
    (fetched : Results p t jobs results) (wrote : (writing p e results).Ends k written)
    (concluded : (concluding written).Ends l epoch)

/-- An epoch that is over has stopped after the check, or it has written. -/
theorem Run.finished {epoch : Epoch} (run : Run p trigger t (.ended epoch)) :
    Balanced t ∧ Finished p trigger t epoch := by
  cases run.accounts with
  | concluding split checked unselected thread =>
    exact ⟨thread.balanced, .stopped split checked unselected thread.path⟩
  | writing split checked selected fetched thread =>
    refine ⟨thread.balanced, ?_⟩
    obtain ⟨k, l, written, rfl, hk, hl⟩ := ends_bind.1 thread.path
    exact .written split checked selected fetched hk hl

end Engine

end ContentSync
