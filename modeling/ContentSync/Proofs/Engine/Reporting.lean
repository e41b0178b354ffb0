import ContentSync.Notice.Event
import ContentSync.Proofs.Engine.Effects
import ContentSync.Proofs.Engine.Solo

/-!
# Which cancellations are reported

An epoch looks once, after its fetches, whether it counts as cancelled. A cancellation that comes
later can still keep payloads from being written and kinds from being committed, but the epoch does
not report it.

* `Hindered` — a cancellation has kept an epoch from something;
* `Run.cancelled_of_hindered` — nothing else keeps an epoch from it;
* `Run.announced_eq` — an epoch that is over has announced itself, once;
* `Reported` — an epoch tells that it was cancelled;
* `Run.reported_iff` — a hindered epoch reports its cancellation exactly when it was cancelled before
  it began to write.
-/

set_option autoImplicit false

namespace ContentSync

/-- The event that a request announces. -/
def Request.event? : Request → Option Event
  | announce event => some event
  | _ => none

namespace Engine

open Program

variable {p : SyncPolicy} {trigger : Trigger} {t past rest : List Moment} {s : Situation}
  {epoch : Epoch}

/-- A cancellation has kept an epoch from fetching or writing a selected target, or from committing a
kind that was written in full. -/
inductive Hindered (p : SyncPolicy) (t : List Moment) (epoch : Epoch) : Prop
  | unfetched {jobs : List Job} {n : Nat} {job : Job} {e : Exchange}
    (selected : selections t = [jobs]) (mem : jobs[n]? = some job)
    (answered : Moment.answered (.job n) e ∈ t) (shows : e.showsCancellation = true)
  | unwritten {jobs : List Job} {target : FetchTarget} {v : Version} {payload : Json}
    (selected : selections t = [jobs]) (mem : (target, v) ∈ jobs)
    (fetched : Brought t (.fetch target v p.unzip) payload)
    (unmade : ∀ new lifetime, Call.write (target.key v) new lifetime ∉ calls t)
  | uncommitted {report : KindReport} (mem : report ∈ epoch.kinds)
    (written : report.fullyWritten = true) (unmade : ∀ v, Call.commit report.kind v ∉ calls t)

/-- An epoch tells that it was cancelled. -/
structure Reported (epoch : Epoch) : Prop where
  cancelled : epoch.cancelled = true
  outcome : epoch.outcome = some .failure
  title : (Event.ofEpoch epoch).title = "Content sync cancelled"

/-- The epoch was cancelled before it began to write. -/
def CancelledBeforeWriting (t : List Moment) : Prop :=
  ∃ before after, t = before ++ .asked .epoch (.publish .writing) :: after ∧
    wasCancelled before = true

theorem reported_finalize {e : Epoch} {now : Timestamp} :
    Reported (e.finalize now) ↔ e.cancelled = true := by
  constructor
  · exact fun hr => hr.cancelled
  · intro hc
    have hverdict : e.verdict = .failure := by simp [Epoch.verdict, hc]
    refine ⟨hc, ?_, ?_⟩
    · rw [Epoch.finalize, hverdict]
    · simp [Event.ofEpoch, Epoch.finalize, Epoch.collect, hverdict, hc, Event.titleOf]

/-- Who was told of a cancellation was told the truth. -/
theorem Run.cancelled_of_answered {w : Worker} {e : Exchange} (run : Run p trigger t s)
    (he : Moment.answered w e ∈ t) (hc : ∀ c, e.request.Admits c e.answer → c = true) :
    wasCancelled t = true := by
  obtain ⟨before, after, rfl⟩ := List.append_of_mem he
  rw [wasCancelled_append, hc _ run.admits, Bool.true_or]

/-- Who looked was told the truth. -/
theorem Run.cancelled_of_look (run : Run p trigger t s)
    (he : cancelAnswer true ∈ exchanges .epoch t) : wasCancelled t = true :=
  run.cancelled_of_answered (mem_exchanges.1 he) fun _ hc => hc.symm

/-- A kind that was written in full is committed, unless a cancellation was seen. -/
theorem commit_of_fullyWritten {results : List Fetched} {r report : KindReport} {k : List Exchange}
    (hq : (processKind p results r).Ends k report) (hfull : report.fullyWritten = true) :
    cancelAnswer true ∈ k ∨ ∃ e ∈ k, ∃ v limit, e.request = .call (.commit report.kind v) limit := by
  obtain ⟨k₁, k₂, targets, rfl, -, hcommit⟩ := ends_processKind hq
  obtain ⟨-, hnot, rfl⟩ | ⟨rfl, -, -⟩ | ⟨a, f, rfl, -, -, rfl⟩ | ⟨k, rfl, -, -, rfl⟩ :=
    ends_commitKind hcommit
  · rw [hnot] at hfull
    cases hfull
  · exact .inl (by simp)
  all_goals
    exact .inr ⟨_, List.mem_append_right _ (List.mem_cons_of_mem _ List.mem_cons_self), _, _, rfl⟩

/-- What was fetched for a kind is written, unless a cancellation was seen. -/
theorem write_of_fetched {results : List Fetched} {r report : KindReport} {k : List Exchange}
    (hq : (processKind p results r).Ends k report) {f : Fetched} (hf : f ∈ results)
    (hkind : f.target.kind = r.kind) {payload : Json} (hp : f.payload = .ok payload) :
    cancelAnswer true ∈ k ∨
      ∃ e ∈ k, ∃ limit, e.request = .call (writeCall p r f.target payload) limit := by
  obtain ⟨k₁, k₂, targets, rfl, hwrites, -⟩ := ends_processKind hq
  obtain hm | ⟨a, hm⟩ := (ends_writeTargets hwrites).cases_of_fetched (by simp [hf, hkind]) hp
  · exact .inl (List.mem_append_left _ hm)
  · exact .inr ⟨_, List.mem_append_left _ hm, _, rfl⟩

/-! ## What is announced -/

/-- The events that an epoch has announced. -/
def announced (t : List Moment) : List Event := (requests .epoch t).filterMap Request.event?

theorem announced_of_ends_announcing {h : List Exchange} {e finished : Epoch}
    (hq : (announcing e).Ends h finished) :
    (h.map (·.request)).filterMap Request.event? = [Event.ofEpoch finished] := by
  simp only [announcing, ends_bind, ends_request, ends_pure] at hq
  obtain ⟨_, _, _, rfl, rfl, _, _, _, rfl, rfl, _, _, _, rfl, rfl, _, _, _, rfl, rfl, rfl, rfl⟩ := hq
  rfl

theorem announced_of_ends_concluding {h : List Exchange} {e finished : Epoch}
    (hq : (concluding e).Ends h finished) :
    (h.map (·.request)).filterMap Request.event? = [Event.ofEpoch finished] := by
  simp only [concluding, ends_bind, ends_request] at hq
  obtain ⟨_, _, now, rfl, rfl, hq⟩ := hq
  split at hq
  · simp only [ends_bind, ends_request] at hq
    obtain ⟨_, _, _, rfl, rfl, hq⟩ := hq
    have hannounced := announced_of_ends_announcing hq
    exact hannounced
  · have hannounced := announced_of_ends_announcing hq
    exact hannounced

/-- Nothing is announced by a program none of whose requests announces anything. -/
theorem announced_eq_nil {α : Type} {q : Program α} {h : List Exchange} {a : α} (hq : q.Ends h a)
    (hasks : ∀ {h r}, q.Asks h r → r.event? = none) :
    (h.map (·.request)).filterMap Request.event? = [] := by
  simp only [List.filterMap_map, List.filterMap_eq_nil_iff, Function.comp_apply]
  intro e he
  obtain ⟨_, hr⟩ := Path.asks_of_mem hq he
  exact hasks hr

theorem event?_of_asks_checking {h : List Exchange} {r : Request}
    (hr : (checking p trigger).Asks h r) : r.event? = none := by
  have hcheck := asks_checking hr
  cases r <;> first | rfl | exact hcheck.elim

theorem event?_of_asks_writing {e : Epoch} {results : List Fetched} {h : List Exchange} {r : Request}
    (hr : (writing p e results).Asks h r) : r.event? = none := by
  obtain rfl | rfl | ⟨_, -, hconcerns⟩ := asks_writing_request hr
  · rfl
  · rfl
  · cases r <;> first | rfl | exact hconcerns.elim

/-- **An epoch that is over has announced itself, once.** -/
theorem Run.announced_eq (run : Run p trigger t (.ended epoch)) :
    announced t = [Event.ofEpoch epoch] := by
  obtain ⟨hbalanced, hfinished⟩ := run.finished
  rw [announced, hbalanced]
  cases hfinished with
  | stopped split checked unselected concluded =>
    rw [split, List.map_append, List.filterMap_append,
      announced_eq_nil checked event?_of_asks_checking, List.nil_append]
    exact announced_of_ends_concluding concluded
  | written split checked selected results wrote concluded =>
    rw [split, List.map_append, List.map_append, List.filterMap_append, List.filterMap_append,
      announced_eq_nil checked event?_of_asks_checking,
      announced_eq_nil wrote event?_of_asks_writing, List.nil_append, List.nil_append]
    exact announced_of_ends_concluding concluded

/-! ## What a cancellation keeps an epoch from -/

/-- **Nothing but a cancellation keeps an epoch from what it has selected.** -/
theorem Run.cancelled_of_hindered (run : Run p trigger t (.ended epoch))
    (hh : Hindered p t epoch) : wasCancelled t = true := by
  obtain ⟨-, hfinished⟩ := run.finished
  cases hh with
  | unfetched _ _ answered shows =>
    exact run.cancelled_of_answered answered fun c hc => wasCancelled_of_showsCancellation shows hc
  | @unwritten jobs target v payload selected mem fetched unmade =>
    cases hfinished with
    | stopped split checked unselected concluded =>
      rw [unselected] at selected
      cases selected
    | @written h k l e written jobs' results split checked selected' results_eq wrote concluded =>
      rw [selected', List.singleton_inj] at selected
      subst selected
      obtain ⟨c, k, kinds, rfl, hkinds, -⟩ := ends_writing wrote
      obtain ⟨m, stored, sels, hselected⟩ := ends_checking_ready checked
      obtain ⟨f, hf, rfl, hpayload⟩ := results_eq.exists_of_brought run fetched
      obtain ⟨r, hr, hkind, hversion⟩ := hselected.exists_report mem
      obtain ⟨report, -, k', hk', hends⟩ := (exists_of_ends_processKinds hkinds).1 r hr
      have hin : ∀ e ∈ k', e ∈ exchanges .epoch t := by
        intro e he
        rw [split]
        simp [hk' he]
      obtain hm | ⟨e, he, limit, hrequest⟩ := write_of_fetched hends hf hkind.symm hpayload
      · exact run.cancelled_of_look (hin _ hm)
      · rw [writeCall, hversion] at hrequest
        exact absurd (run.mem_calls_of_exchange (hin e he) (congrArg Request.call? hrequest))
          (unmade _ _)
  | @uncommitted report mem written unmade =>
    cases hfinished with
    | stopped split checked unselected concluded =>
      obtain ⟨now, rfl⟩ := ends_concluding concluded
      rw [show ∀ e : Epoch, (e.finalize now).kinds = e.kinds from fun _ => rfl,
        ends_checking_stopped checked] at mem
      cases mem
    | written split checked selected results wrote concluded =>
      obtain ⟨now, rfl⟩ := ends_concluding concluded
      obtain ⟨c, k, kinds, rfl, hkinds, rfl⟩ := ends_writing wrote
      obtain ⟨r, -, k', hk', hends⟩ := (exists_of_ends_processKinds hkinds).2.1 report mem
      have hin : ∀ e ∈ k', e ∈ exchanges .epoch t := by
        intro e he
        rw [split]
        simp [hk' he]
      obtain hm | ⟨e, he, v, limit, hrequest⟩ := commit_of_fullyWritten hends written
      · exact run.cancelled_of_look (hin _ hm)
      · exact absurd (run.mem_calls_of_exchange (hin e he) (congrArg Request.call? hrequest))
          (unmade v)

/-- **An epoch that writes counts as cancelled when it was so before.** -/
theorem Run.cancelled_at_writing {before after : List Moment}
    (run : Run p trigger (before ++ .asked .epoch (.publish .writing) :: after) (.ended epoch)) :
    ∃ e now, epoch = Epoch.finalize e now ∧ e.cancelled = wasCancelled before := by
  have hbalanced := run.balanced_of_asked
  obtain ⟨-, hfinished⟩ := run.finished
  cases run.asked_epoch .asked with
  | checking asks => cases asks_checking asks
  | concluding ends => cases ends
  | @writing h' k' e' jobs' results' writes asks last =>
    obtain ⟨-, heq⟩ | ⟨c, rfl, -⟩ | ⟨_, _, -, hasks⟩ := asks_writing asks
    · cases heq
    · obtain hnil | ⟨d, hd, ht⟩ := last hbalanced
      · cases hnil
      obtain rfl : cancelAnswer c = d := Option.some.inj hd
      obtain ⟨past, rfl⟩ := List.getLast?_eq_some_iff.1 ht
      have hc : c = wasCancelled (past ++ [.answered .epoch (cancelAnswer c)]) := by
        rw [List.append_assoc, List.singleton_append] at run
        rw [run.cancelled_eq, wasCancelled_append]
        simp [wasCancelled]
      rw [← hc]
      have hbefore := writes.split
      cases hfinished with
      | stopped split checked unselected concluded =>
        rw [exchanges_append, hbefore, List.append_assoc] at split
        cases (writes.checked.eq_of_append_eq checked split).2
      | written split checked selected results wrote concluded =>
        rw [exchanges_append, hbefore, List.append_assoc] at split
        obtain ⟨rfl, heq⟩ := writes.checked.eq_of_append_eq checked split
        cases heq
        obtain ⟨c', k, kinds, rfl, -, rfl⟩ := ends_writing wrote
        obtain ⟨now, rfl⟩ := ends_concluding concluded
        rw [List.append_cancel_left_eq] at split
        obtain ⟨-, heq⟩ := Exchange.mk.inj (List.cons.inj split).1
        exact ⟨_, now, rfl, (eq_of_heq heq).symm⟩
    · obtain ⟨_, -, hconcerns⟩ := asks_processKinds_concerns hasks
      exact hconcerns.elim

/-- An epoch that has selected something begins to write before it is over. -/
theorem Run.writing_mem (run : Run p trigger t (.ended epoch)) (hs : selections t ≠ []) :
    Moment.asked .epoch (.publish .writing) ∈ t := by
  obtain ⟨-, hfinished⟩ := run.finished
  cases hfinished with
  | stopped split checked unselected concluded => exact absurd unselected hs
  | written split checked selected results wrote concluded =>
    obtain ⟨c, k, kinds, rfl, -, -⟩ := ends_writing wrote
    have he : (⟨.publish .writing, ()⟩ : Exchange) ∈ exchanges .epoch t := by simp [split]
    exact mem_requests.1 (run.request_mem he)

theorem Run.selections_ne_nil_of_hindered (run : Run p trigger t (.ended epoch))
    (hh : Hindered p t epoch) : selections t ≠ [] := by
  cases hh with
  | unfetched selected => simp [selected]
  | unwritten selected => simp [selected]
  | uncommitted mem =>
    obtain ⟨-, hfinished⟩ := run.finished
    cases hfinished with
    | stopped split checked unselected concluded =>
      obtain ⟨now, rfl⟩ := ends_concluding concluded
      rw [show ∀ e : Epoch, (e.finalize now).kinds = e.kinds from fun _ => rfl,
        ends_checking_stopped checked] at mem
      cases mem
    | written split checked selected => simp [selected]

/-- **A hindered epoch reports its cancellation exactly when it was cancelled before it began to
write.** What it announces is the event that tells of it. -/
theorem Run.reported_iff (run : Run p trigger t (.ended epoch)) (hh : Hindered p t epoch) :
    wasCancelled t = true ∧ (Reported epoch ↔ CancelledBeforeWriting t) ∧
      announced t = [Event.ofEpoch epoch] := by
  refine ⟨run.cancelled_of_hindered hh, ?_, run.announced_eq⟩
  constructor
  · intro hreported
    obtain ⟨before, after, rfl⟩ := List.append_of_mem
      (run.writing_mem (run.selections_ne_nil_of_hindered hh))
    obtain ⟨e, now, rfl, hcancelled⟩ := run.cancelled_at_writing
    rw [reported_finalize, hcancelled] at hreported
    exact ⟨before, after, rfl, hreported⟩
  · rintro ⟨before, after, rfl, hbefore⟩
    obtain ⟨e, now, rfl, hcancelled⟩ := run.cancelled_at_writing
    rw [reported_finalize, hcancelled]
    exact hbefore

/-- An epoch that is cancelled while its payload is fetched reports it. -/
theorem Run.reported_iff_newGameData :
    ∃ t epoch, Run .fullOnly .manual t (.ended epoch) ∧ Hindered .fullOnly t epoch ∧
      Reported epoch := by
  let played := (Conduct.newGameData fun r => r.call?.any Call.isFetch).play .fullOnly .manual
    false
  have run : Run .fullOnly .manual played.history (.ended played.result) := Conduct.play_run false
  have hselected : selections played.history = [[(.gameData .full, ⟨"2"⟩)]] := by
    decide +kernel
  obtain ⟨e, he, hshows⟩ : ∃ e ∈ exchanges (.job 0) played.history, e.showsCancellation = true :=
    List.any_eq_true.1 (by decide +kernel)
  have hhindered : Hindered .fullOnly played.history played.result :=
    .unfetched hselected rfl (mem_exchanges.1 he) hshows
  obtain ⟨before, after, heq⟩ :=
    List.append_of_mem (run.writing_mem (run.selections_ne_nil_of_hindered hhindered))
  refine ⟨_, _, run, hhindered, (Run.reported_iff run hhindered).2.1.2 ⟨before, after, heq, ?_⟩⟩
  rw [heq] at run
  obtain ⟨e, now, hepoch, hcancelled⟩ := run.cancelled_at_writing
  rw [← hcancelled]
  have hflag : played.result.cancelled = true := by decide +kernel
  rw [hepoch] at hflag
  exact hflag

/-- **Not every cancellation is reported.** One that comes while the payload is written keeps the
kind from being committed, and the epoch does not tell. -/
theorem Run.cancelled_unreported :
    ¬ ∀ (p : SyncPolicy) (trigger : Trigger) (t : List Moment) (epoch : Epoch),
      Run p trigger t (.ended epoch) → Hindered p t epoch → Reported epoch := by
  intro hall
  let played := (Conduct.newGameData fun r => r.call?.any Call.isWrite).play .fullOnly .manual
    false
  have run : Run .fullOnly .manual played.history (.ended played.result) := Conduct.play_run false
  obtain ⟨report, hr, hwritten⟩ : ∃ r ∈ played.result.kinds, r.fullyWritten = true :=
    List.any_eq_true.1 (by decide +kernel)
  have hunmade : (calls played.history).any Call.isCommit = false := by
    decide +kernel
  have hreported := hall .fullOnly .manual _ _ run (.uncommitted hr hwritten fun v hmem => by
    rw [List.any_eq_false] at hunmade
    exact hunmade _ hmem rfl)
  exact absurd hreported.cancelled (by decide +kernel)

end Engine

end ContentSync
