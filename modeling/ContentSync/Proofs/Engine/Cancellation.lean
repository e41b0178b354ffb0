import ContentSync.Proofs.Engine.CommitSafety
import ContentSync.Proofs.Engine.Solo
import ContentSync.Rehearsal.Play

/-!
# Cancellation stops the effects

After an epoch has been cancelled it commits nothing, and at most the payload whose comparison was
under way is still written. A retry loop that has seen the cancellation makes no further attempt.

* `LetThrough` — a call that a look from before the cancellation has let through;
* `Run.letThrough_of_write` — every write after a cancellation is such a call;
* `Run.writes_length_le` — there is at most one;
* `Run.not_attempt_of_shows` — no attempt follows when a cancellation has been seen;
* `Run.pending_of_commit` — a commit that is answered after a cancellation was under way before it;
* `Run.cancellation_stops_effects` — all of this, and that a server that was shut down starts no
  epoch.
-/

set_option autoImplicit false

namespace ContentSync

/-- A request of the comparison of a target with an earlier payload. -/
def Request.IsOfComparison (target : FetchTarget) : Request → Prop
  | .compute => True
  | .call (.read key) _ => ∃ old, key = target.key old
  | _ => False

namespace Engine

open Program

variable {p : SyncPolicy} {trigger : Trigger} {t u past rest : List Moment} {s : Situation}

/-- The writes that were started. -/
def writes (t : List Moment) : List Call := (calls t).filter Call.isWrite

/-- The only request of the epoch without an answer. -/
def Pending (t : List Moment) (r : Request) : Prop :=
  requests .epoch t = (exchanges .epoch t).map (·.request) ++ [r]

/-! ## Where a history is cut -/

/-- An exchange of a worker takes place at some point of a history. -/
theorem exists_of_exchanges_eq {w : Worker} {h k : List Exchange} {e : Exchange}
    (heq : exchanges w t = h ++ e :: k) :
    ∃ before since, t = before ++ .answered w e :: since ∧ exchanges w before = h ∧
      exchanges w since = k := by
  obtain ⟨before, tail, rfl, hbefore, htail⟩ := List.filterMap_eq_append_iff.1 heq
  obtain ⟨skipped, m, since, rfl, hskipped, hm, hsince⟩ := List.filterMap_eq_cons_iff.1 htail
  have hanswer : m = .answered w e := by
    have hin : e ∈ exchanges w [m] := by simp [exchanges, hm]
    exact (List.mem_singleton.1 (mem_exchanges.1 hin)).symm
  have hnone : exchanges w skipped = [] := by
    rw [exchanges, List.filterMap_eq_nil_iff]
    exact hskipped
  refine ⟨before ++ skipped, since, by simp [hanswer], ?_, hsince⟩
  rw [exchanges_append, hnone, List.append_nil]
  exact hbefore

/-- An answer from before a cancellation comes before it. -/
theorem split_before_cancelled {w : Worker} {e : Exchange} {between since : List Moment}
    {before : List Moment} (heq : past ++ .cancelled :: between = before ++ .answered w e :: since)
    (hc : wasCancelled before = false) :
    ∃ middle, past = before ++ .answered w e :: middle ∧
      since = middle ++ .cancelled :: between := by
  obtain ⟨_ | ⟨m, _⟩, hbefore, htail⟩ | ⟨_ | ⟨m, middle⟩, hpast, htail⟩ :=
    List.append_eq_append_iff.1 heq
  · cases htail
  · obtain ⟨rfl, -⟩ := List.cons.inj htail
    rw [hbefore, wasCancelled_append] at hc
    simp [wasCancelled] at hc
  · cases htail
  · obtain ⟨rfl, rfl⟩ := List.cons.inj htail
    exact ⟨middle, hpast, rfl⟩

/-- Before it is answered, a request of the epoch is pending. -/
theorem Run.pending_of_answered {e : Exchange}
    (run : Run p trigger (t ++ .answered .epoch e :: u) s) : Pending t e.request := by
  obtain ⟨s₁, run₁, ⟨heq, -⟩ | ⟨s₂, hs⟩⟩ := run.split
  · cases heq
  cases hs with
  | fetch hth => cases hth
  | check hth =>
    cases hth with
    | answer _ next =>
      cases run₁.accounts with
      | checking thread => exact thread.requests_eq
  | write hth =>
    cases hth with
    | answer _ next =>
      cases run₁.accounts with
      | concluding split checked unselected thread => exact thread.requests_eq
      | writing split checked selected fetched thread => exact thread.requests_eq

/-- A program at rest has a request that is pending. -/
theorem Thread.Accounts.pending {α : Type} {origin : Program α} {h : List Exchange}
    {th : Thread α} (ha : th.Accounts origin t h) (hrest : th.AtRest) : ∃ r, Pending t r := by
  cases th with
  | running => exact hrest.elim
  | waiting r next => exact ⟨r, ha.requests_eq⟩

/-- An epoch is cancelled before it starts, while it fetches, or while it waits. -/
theorem Run.pending_of_cancelled (run : Run p trigger (past ++ .cancelled :: rest) s) :
    past = [] ∨ (∃ epoch jobs, (checking p trigger).Ends (exchanges .epoch past) (.ready epoch jobs))
      ∨ ∃ r, Pending past r := by
  obtain ⟨s₁, run₁, ⟨-, -, rfl | hrest⟩ | ⟨s₂, hs⟩⟩ := run.split
  · exact .inl rfl
  · cases run₁.accounts with
    | checking thread => exact .inr (.inr (thread.pending hrest))
    | fetching checked => exact .inr (.inl ⟨_, _, checked⟩)
    | concluding split checked unselected thread => exact .inr (.inr (thread.pending hrest))
    | writing split checked selected fetched thread => exact .inr (.inr (thread.pending hrest))
  · cases hs with
    | check hth => cases hth
    | fetch hth => cases hth
    | write hth => cases hth

/-- Requests and answers balance after an answer as they do in the whole history. -/
theorem requests_since {before since : List Moment} {e : Exchange} {l : List Request}
    (hb : Pending before e.request)
    (ht : requests .epoch (before ++ .answered .epoch e :: since)
      = (exchanges .epoch (before ++ .answered .epoch e :: since)).map (·.request) ++ l) :
    requests .epoch since = (exchanges .epoch since).map (·.request) ++ l := by
  have hcons : Moment.answered .epoch e :: since = [.answered .epoch e] ++ since := rfl
  simp only [hcons, requests_append, exchanges_append, requests_answered, exchanges_answered,
    if_true, List.nil_append, List.map_append, List.map_cons, List.map_nil] at ht
  rw [show requests .epoch before = _ from hb] at ht
  simpa [List.append_assoc] using ht

/-! ## Writes after a cancellation -/

/-- A write that a look from before the cancellation has let through: the comparison of its target
was under way, and nothing else has been asked for since the look. -/
inductive LetThrough (past between : List Moment) (target : FetchTarget) : Prop
  | intro {before middle : List Moment} {r : Request}
    (past_eq : past = before ++ .answered .epoch (cancelAnswer false) :: middle)
    (pending : Pending past r) (mem_middle : r ∈ requests .epoch middle)
    (compares : ∀ q ∈ requests .epoch (middle ++ between), q.IsOfComparison target)

theorem isOfComparison_of_asks {r : KindReport} {target : FetchTarget} {new : Json}
    {h : List Exchange} {q : Request} (hq : (comparison p r target new).Asks h q) :
    q.IsOfComparison target := by
  obtain rfl | ⟨old, -, rfl⟩ := asks_comparison hq
  · trivial
  · exact ⟨old, rfl⟩

/-- **A write after a cancellation was let through before.** -/
theorem Run.letThrough_of_write {between after : List Moment} {w : Worker} {q : Request}
    {key : CacheKey} {payload : Json} {lifetime : Duration}
    (run : Run p trigger (past ++ .cancelled :: (between ++ .asked w q :: after)) s)
    (hq : q.call? = some (.write key payload lifetime)) :
    w = .epoch ∧ ∃ target v, key = FetchTarget.key target v ∧ LetThrough past between target := by
  have run' := run
  rw [← List.cons_append, ← List.append_assoc] at run'
  obtain ⟨rfl, epoch, jobs, results, r, l, f, d, c, hp, hd, -, -, -, rfl, -⟩ :=
    run'.asked_write .asked hq
  have hbalanced := run'.balanced_of_asked
  refine ⟨rfl, f.target, r.newVersion, rfl, ?_⟩
  obtain ⟨writes, -, -⟩ := hp
  have hsplit := writes.split
  rw [← List.cons_append, ← List.cons_append, ← List.append_assoc, ← List.append_assoc] at hsplit
  obtain ⟨before, since, heq, -, rfl⟩ := exists_of_exchanges_eq hsplit
  rw [heq, List.append_assoc] at run'
  obtain ⟨middle, rfl, rfl⟩ := split_before_cancelled heq run'.cancelled_eq.symm
  have hbefore := run'.pending_of_answered
  have hsince := requests_since (l := []) hbefore (by rw [← heq, List.append_nil]; exact hbalanced)
  obtain hnil | ⟨_, _, hends⟩ | ⟨q', hpending⟩ := run.pending_of_cancelled
  · simp at hnil
  · -- The check never looks whether the epoch is cancelled.
    obtain ⟨_, hasks⟩ := Path.asks_of_mem hends (e := cancelAnswer false) (by simp [mem_exchanges])
    exact (asks_checking hasks).elim
  refine .intro rfl hpending ?_ ?_
  · rw [requests_since hbefore hpending]
    simp
  · intro q hq
    have hin : q ∈ requests .epoch (middle ++ .cancelled :: between) := by
      simpa [mem_requests] using hq
    rw [hsince, List.append_nil] at hin
    obtain ⟨e, he, rfl⟩ := List.mem_map.1 hin
    obtain ⟨_, hasks⟩ := Path.asks_of_mem hd he
    exact isOfComparison_of_asks hasks

/-- Two writes stand at two places of a history. -/
theorem exists_of_writes_eq {c₁ c₂ : Call} {others : List Call}
    (hw : writes t = c₁ :: c₂ :: others) :
    ∃ a w q b w' q' d, t = a ++ .asked w q :: (b ++ .asked w' q' :: d) ∧ q.call? = some c₁ ∧
      q'.call? = some c₂ ∧ c₁.isWrite = true ∧ c₂.isWrite = true := by
  obtain ⟨_, l, hcalls, -, hfirst, hothers⟩ := List.filter_eq_cons_iff.1 hw
  obtain ⟨hmem, hsecond⟩ : c₂ ∈ l ∧ c₂.isWrite = true := by
    rw [← List.mem_filter, hothers]
    exact List.mem_cons_self
  obtain ⟨a, tail, rfl, -, htail⟩ := List.filterMap_eq_append_iff.1 hcalls
  obtain ⟨skipped, m, rest, rfl, -, hm, hrest⟩ := List.filterMap_eq_cons_iff.1 htail
  rw [← hrest] at hmem
  obtain ⟨b, w', q', d, rfl, hq'⟩ := exists_of_mem_calls hmem
  cases m with
  | asked w q => exact ⟨a ++ skipped, w, q, b, w', q', d, by simp, hm, hq', hfirst, hsecond⟩
  | cancelled | answered | selected | progressed => cases hm

/-- **At most one write starts after a cancellation.** -/
theorem Run.writes_length_le (run : Run p trigger (past ++ .cancelled :: rest) s) :
    (writes rest).length ≤ 1 := by
  match hw : writes rest with
  | [] => exact Nat.zero_le _
  | [_] => exact Nat.le_refl _
  | c₁ :: c₂ :: others =>
    exfalso
    obtain ⟨a, w, q, b, w', q', d, rfl, hq, hq', h₁, h₂⟩ := exists_of_writes_eq hw
    cases c₁ <;> cases h₁
    cases c₂ <;> cases h₂
    obtain ⟨rfl, -⟩ := run.letThrough_of_write hq
    -- Between the look and the second write there would be the first one, which compares nothing.
    have run' : Run p trigger
        (past ++ .cancelled :: ((a ++ .asked .epoch q :: b) ++ .asked w' q' :: d)) s := by
      simpa using run
    obtain ⟨-, target, v, -, ⟨-, -, -, hcompares⟩⟩ := run'.letThrough_of_write hq'
    have hcompares := hcompares q (mem_requests.2 (by simp))
    cases q <;> cases hq <;> exact hcompares

/-! ## Attempts after a cancellation -/

/-- **No attempt follows when a cancellation has been seen.** -/
theorem Run.not_attempt_of_shows {w : Worker} {c : Call} {limit : Duration}
    (run : Run p trigger (t ++ .asked w (.attempt c limit) :: u) s) {e : Exchange}
    (he : Moment.answered w e ∈ t) : e.showsCancellation = false := by
  rw [← mem_exchanges] at he
  cases w with
  | job n =>
    obtain ⟨job, hasks⟩ := run.asked_job .asked
    exact (asks_fetchOne hasks).2 e he
  | epoch =>
    cases run.asked_epoch .asked with
    | checking asks => exact asks_checking_attempt asks e he
    | concluding ends => cases ends
    | writing writes asks =>
      obtain heq | heq | ⟨_, -, hconcerns⟩ := asks_writing_request asks
      · cases heq
      · cases heq
      · exact hconcerns.elim

/-! ## Commits after a cancellation -/

/-- **No commit starts after a cancellation.** -/
theorem Run.not_commit_mem (run : Run p trigger (past ++ .cancelled :: rest) s) (kind : DataKind)
    (v : Version) : Call.commit kind v ∉ calls rest := by
  intro hmem
  obtain ⟨between, w, q, after, rfl, hq⟩ := exists_of_mem_calls hmem
  rw [← List.cons_append, ← List.append_assoc] at run
  have huncancelled := (run.warranted hq).uncancelled
  simp [wasCancelled] at huncancelled

/-- **A commit that is answered after a cancellation was under way before it.** -/
theorem Run.pending_of_commit {w : Worker} {e : Exchange} {kind : DataKind} {v : Version}
    (run : Run p trigger (past ++ .cancelled :: rest) s) (he : Moment.answered w e ∈ rest)
    (hcommit : e.request.call? = some (.commit kind v)) : w = .epoch ∧ Pending past e.request := by
  obtain ⟨between, after, rfl⟩ := List.append_of_mem he
  cases w with
  | job n =>
    obtain ⟨_, _, heq⟩ := run.fetch_of_answered (n := n) (e := e) (by simp) hcommit
    cases heq
  | epoch =>
    refine ⟨rfl, ?_⟩
    have hunmade : e.request ∉ requests .epoch between := fun hin =>
      run.not_commit_mem kind v (mem_calls.2 ⟨.epoch, _, by simp [mem_requests.1 hin], hcommit⟩)
    have run' := run
    rw [← List.cons_append, ← List.append_assoc] at run'
    have hpending := run'.pending_of_answered
    obtain ⟨s₁, run₁, -⟩ := run.split
    obtain ⟨l, hbalance, hl⟩ := run₁.balance
    have hcons : Moment.cancelled :: between = [.cancelled] ++ between := rfl
    simp only [Pending, hcons, requests_append, exchanges_append, requests_cancelled,
      exchanges_cancelled, List.nil_append, List.map_append, hbalance, List.append_assoc,
      List.append_cancel_left_eq] at hpending
    obtain hnil | ⟨front, r, heq⟩ := List.eq_nil_or_concat (requests .epoch between)
    · rw [hnil, List.append_nil] at hpending
      rw [hpending, List.length_append, List.length_singleton] at hl
      have hnone : (exchanges .epoch between).map (·.request) = [] :=
        List.eq_nil_of_length_eq_zero (by omega)
      rw [Pending, hbalance, hpending, hnone, List.nil_append]
    · rw [heq, List.concat_eq_append, ← List.append_assoc] at hpending
      obtain rfl := (List.cons.inj (List.append_inj' hpending rfl).2).1
      exact absurd (by simp [heq]) hunmade

/-! ## All effects -/

/-- **Cancellation stops the effects.** After it no commit starts, and at most one write does, whose
comparison was under way; a retry loop that has seen it makes no attempt; a commit that is answered
later was under way. Nothing is written in an epoch that was cancelled before it started, and no
epoch is started once the application has been shut down. -/
theorem Run.cancellation_stops_effects (run : Run p trigger (past ++ .cancelled :: rest) s) :
    (∀ kind v, Call.commit kind v ∉ calls rest) ∧
    (writes rest).length ≤ 1 ∧
    (∀ between w q after key payload lifetime, rest = between ++ .asked w q :: after →
      q.call? = some (.write key payload lifetime) →
      ∃ target v, key = FetchTarget.key target v ∧ LetThrough past between target) ∧
    (∀ w e seen later c limit, rest = seen ++ .answered w e :: later →
      e.showsCancellation = true → Moment.asked w (.attempt c limit) ∉ later) ∧
    (∀ w e kind v, Moment.answered w e ∈ rest → e.request.call? = some (.commit kind v) →
      w = .epoch ∧ Pending past e.request) ∧
    (past = [] → writes rest = []) ∧
    ∀ (play : Rehearsal.Play) (trigger : Trigger), play.stopped = true →
      (play.begin (.triggered trigger)).1 = play := by
  refine ⟨?_, ?_, ?_, ?_, ?_, ?_, ?_⟩
  · exact run.not_commit_mem
  · exact run.writes_length_le
  · rintro between w q after key payload lifetime rfl hq
    exact (run.letThrough_of_write hq).2
  · rintro w e seen later c limit rfl he hasked
    obtain ⟨between, after, rfl⟩ := List.append_of_mem hasked
    have run' : Run p trigger ((past ++ .cancelled :: (seen ++ .answered w e :: between)) ++
        .asked w (.attempt c limit) :: after) s := by
      simpa using run
    rw [run'.not_attempt_of_shows (by simp)] at he
    cases he
  · intro w e kind v he hcommit
    exact run.pending_of_commit he hcommit
  · rintro rfl
    rw [List.eq_nil_iff_forall_not_mem]
    intro c hc
    obtain ⟨hcall, hwrite⟩ := List.mem_filter.1 hc
    obtain ⟨between, w, q, after, rfl, hq⟩ := exists_of_mem_calls hcall
    cases c <;> cases hwrite
    obtain ⟨-, _, _, -, ⟨hpast, -, -, -⟩⟩ := run.letThrough_of_write hq
    simp at hpast
  · intro play trigger hstopped
    simp [Rehearsal.Play.begin, Rehearsal.Play.beginOne, hstopped, Rehearsal.Play.finish]

/-- An epoch that is cancelled during a comparison commits nothing afterwards. -/
theorem Run.cancellation_stops_effects_newGameData :
    ∃ past rest s, Run .fullOnly .manual (past ++ .cancelled :: rest) s ∧
      (∀ kind v, Call.commit kind v ∉ calls rest) ∧ (writes rest).length ≤ 1 := by
  let played := (Conduct.newGameData fun r => r matches .compute).play .fullOnly .manual false
  have run : Run .fullOnly .manual played.history (.ended played.result) := Conduct.play_run false
  obtain ⟨past, rest, heq⟩ := List.append_of_mem (wasCancelled_iff.1
    (by decide +kernel : wasCancelled played.history = true))
  rw [heq] at run
  obtain ⟨hcommit, hwrites, -⟩ := Run.cancellation_stops_effects run
  exact ⟨past, rest, _, run, hcommit, hwrites⟩

/-- The payload whose comparison was under way is still written. -/
example : (writes (((Conduct.newGameData fun r => r matches .compute).play .fullOnly .manual
    false).history.dropWhile fun m => !(m matches .cancelled))).length = 1 := by
  decide +kernel

end Engine

end ContentSync
