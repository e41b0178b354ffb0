import ContentSync.Engine.Clockwork
import ContentSync.Proofs.Engine.Budget
import ContentSync.Proofs.Engine.Closing
import Mathlib.Data.Nat.Find
import Mathlib.Order.Bounds.Basic

/-!
# The loop of attempts

A call with retries makes attempts until one of them is the last: it has not failed, or it has failed
for a reason that does not pass, or as many have been made as the policy allows. After each of the
others there is a pause.

* `Attempted` — what an attempt comes to when it is not cancelled;
* `rounds` — attempts that are made again, each with the pause after it;
* `Last` — how the last attempt ends the loop;
* `ends_retrying_iff`, `ends_withRetry_iff` — the paths of a call with retries are these and no others;
* `Stops`, `courseOf` / `ends_courseOf` — what becomes of any sequence of outcomes;
* `Conclusion` / `conclusion_of_ends` — what has happened when the loop ends;
* `Run.attempts_eq` — the attempts that an epoch reports of a target are its calls for it.
-/

set_option autoImplicit false

namespace ContentSync.Engine

open Program

variable {p : SyncPolicy} {what : String} {c : Call} {h : List Exchange}

/-- What an attempt that is not cancelled comes to, and nothing if it takes longer than its limit. -/
abbrev Attempted (c : Call) : Type := Option (Except Failure c.Answer)

/-- The result of an attempt. Taking too long is a failure. -/
def Attempted.result (p : SyncPolicy) (what : String) {c : Call} (x : Attempted c) :
    Except Failure c.Answer :=
  settle p what (Ending.ofResult? x)

/-- The result is a failure that may pass. -/
def Attempted.Passes (p : SyncPolicy) (what : String) {c : Call} (x : Attempted c) : Prop :=
  ∃ f, x.result p what = .error f ∧ f.transient = true

/-- An attempt and what it comes to. -/
def attemptOf (p : SyncPolicy) {c : Call} (x : Attempted c) : Exchange :=
  ⟨.attempt c p.fetchTimeout, Ending.ofResult? x⟩

/-- Attempts that are made again, with numbers from the given one on, each with the pause after it. -/
def rounds (p : SyncPolicy) {c : Call} : Nat → List (Attempted c) → List Exchange
  | _, [] => []
  | number, x :: xs =>
    attemptOf p x :: ⟨.pause (p.retry.delay number), false⟩ :: rounds p (number + 1) xs

/-- How the last attempt, with the given number, ends the loop. -/
inductive Last (p : SyncPolicy) (what : String) (c : Call) (number : Nat) :
    List Exchange → Except Failure c.Answer → Prop
  /-- It is not made again. -/
  | ended (x : Attempted c) (final : ¬ x.Passes p what ∨ attemptLimit p ≤ number) :
    Last p what c number [attemptOf p x] (x.result p what)
  /-- The epoch was cancelled before there was an answer. -/
  | cancelled : Last p what c number [⟨.attempt c p.fetchTimeout, .cancelled⟩] (.error .cancelled)
  /-- The epoch was cancelled in the pause before another attempt. -/
  | cutShort (x : Attempted c) (passes : x.Passes p what) (left : number < attemptLimit p) :
    Last p what c number [attemptOf p x, ⟨.pause (p.retry.delay number), true⟩] (.error .cancelled)

/-! ## Paths -/

theorem passes_of_settle {ending : Ending c.Answer} {f : Failure} (hs : settle p what ending = .error f)
    (hf : f.transient = true) :
    ∃ x : Attempted c, ending = Ending.ofResult? x ∧ x.Passes p what := by
  cases ending with
  | answered result => exact ⟨some result, rfl, f, hs, hf⟩
  | overdue => exact ⟨none, rfl, f, hs, hf⟩
  | cancelled =>
    cases hs
    cases hf

/-- An attempt that is not followed by a pause is the last one. -/
theorem last_of_settle {number : Nat} (ending : Ending c.Answer)
    (hfinal : (∀ f, settle p what ending = .error f → f.transient = false) ∨
      attemptLimit p ≤ number) :
    Last p what c number [⟨.attempt c p.fetchTimeout, ending⟩] (settle p what ending) := by
  have hcases : ∀ x : Attempted c, ending = Ending.ofResult? x →
      ¬ x.Passes p what ∨ attemptLimit p ≤ number := by
    rintro x rfl
    refine hfinal.imp_left fun hnot => ?_
    rintro ⟨f, hx, hf⟩
    rw [hnot f hx] at hf
    cases hf
  cases ending with
  | answered result => exact .ended (some result) (hcases (some result) rfl)
  | overdue => exact .ended none (hcases none rfl)
  | cancelled => exact .cancelled

/-- **The paths of a call with some attempts left.** -/
theorem ends_retrying_iff {left number n : Nat} {result : Except Failure c.Answer}
    (hleft : left + number = attemptLimit p) :
    (retrying p what c left number).Ends h (n, result) ↔
      ∃ (xs : List (Attempted c)) (k : List Exchange), h = rounds p number xs ++ k ∧
        n = number + xs.length ∧ n ≤ attemptLimit p ∧ (∀ x ∈ xs, x.Passes p what) ∧
        Last p what c n k result := by
  induction left generalizing number h with
  | zero =>
    rw [ends_retrying_zero]
    constructor
    · rintro ⟨ending, rfl, rfl, rfl⟩
      exact ⟨[], _, rfl, rfl, by omega, nofun, last_of_settle ending (.inr (by omega))⟩
    · rintro ⟨xs, k, rfl, rfl, hle, -, hlast⟩
      obtain rfl : xs = [] := List.eq_nil_of_length_eq_zero (by omega)
      cases hlast with
      | ended x => exact ⟨_, rfl, rfl, rfl⟩
      | cancelled => exact ⟨_, rfl, rfl, rfl⟩
      | cutShort x passes left => simp at left; omega
  | succ left ih =>
    rw [ends_retrying_succ]
    constructor
    · rintro ⟨ending, k, rfl, ⟨rfl, rfl, rfl, hfinal⟩ | ⟨f, cut, l, hs, hf, rfl, hl⟩⟩
      · exact ⟨[], _, rfl, rfl, by omega, nofun, last_of_settle ending (.inl hfinal)⟩
      · obtain ⟨x, rfl, hx⟩ := passes_of_settle hs hf
        cases cut with
        | true =>
          obtain ⟨rfl, rfl, rfl⟩ := (if_pos rfl).mp hl
          exact ⟨[], _, rfl, rfl, by omega, nofun, .cutShort x hx (by omega)⟩
        | false =>
          obtain ⟨xs, k, rfl, rfl, hle, hxs, hlast⟩ :=
            (ih (by omega)).1 (show (retrying p what c left (number + 1)).Ends l (n, result) from hl)
          refine ⟨x :: xs, k, rfl, ?_, hle, List.forall_mem_cons.2 ⟨hx, hxs⟩, hlast⟩
          rw [List.length_cons]
          omega
    · rintro ⟨xs, k, rfl, rfl, hle, hxs, hlast⟩
      cases xs with
      | nil =>
        cases hlast with
        | ended x final =>
          refine ⟨_, [], rfl, .inl ⟨rfl, rfl, rfl, fun f hs => ?_⟩⟩
          by_contra hf
          rcases final with hnot | hlimit
          · exact hnot ⟨f, hs, by simpa using hf⟩
          · simp only [List.length_nil] at hlimit
            omega
        | cancelled =>
          refine ⟨_, [], rfl, .inl ⟨rfl, rfl, rfl, ?_⟩⟩
          rintro _ ⟨⟩
          rfl
        | cutShort x passes left =>
          obtain ⟨f, hs, hf⟩ := passes
          exact ⟨_, _, rfl, .inr ⟨f, true, [], hs, hf, rfl, rfl, rfl, rfl⟩⟩
      | cons x xs =>
        obtain ⟨⟨f, hs, hf⟩, hxs⟩ := List.forall_mem_cons.1 hxs
        rw [List.length_cons] at hle hlast
        refine ⟨_, _, rfl, .inr ⟨f, false, rounds p (number + 1) xs ++ k, hs, hf, rfl, ?_⟩⟩
        refine (ih (by omega)).2 ⟨xs, k, rfl, ?_, ?_, hxs, ?_⟩
        · rw [List.length_cons]
          omega
        · rw [List.length_cons]
          omega
        · exact hlast

/-- **The paths of a call with retries.** -/
theorem ends_withRetry_iff {n : Nat} {result : Except Failure c.Answer} :
    (withRetry p what c).Ends h (n, result) ↔
      ∃ (xs : List (Attempted c)) (k : List Exchange), h = rounds p 1 xs ++ k ∧ n = 1 + xs.length ∧
        n ≤ attemptLimit p ∧ (∀ x ∈ xs, x.Passes p what) ∧ Last p what c n k result :=
  ends_retrying_iff (by unfold attemptLimit; omega)

/-! ## Outcomes -/

/-- The attempt with a number is not made again. -/
def Stops (p : SyncPolicy) (what : String) {c : Call} (o : Nat → Attempted c) (n : Nat) : Prop :=
  1 ≤ n ∧ (¬ (o n).Passes p what ∨ attemptLimit p ≤ n)

/-- What is exchanged when the attempts come to given outcomes and the last one has a number. -/
def courseOf (p : SyncPolicy) {c : Call} (o : Nat → Attempted c) (n : Nat) : List Exchange :=
  rounds p 1 ((List.range' 1 (n - 1)).map o) ++ [attemptOf p (o n)]

/-- There is a first attempt that is not made again, and its number is within the limit. -/
theorem exists_first_stop (o : Nat → Attempted c) :
    ∃ n, IsLeast {i | Stops p what o i} n ∧ n ≤ attemptLimit p := by
  classical
  have hlimit : Stops p what o (attemptLimit p) := ⟨Nat.le_max_left .., .inr (Nat.le_refl _)⟩
  have hex : ∃ n, Stops p what o n := ⟨_, hlimit⟩
  refine ⟨Nat.find hex, ⟨Nat.find_spec hex, fun n hn => Nat.find_min' hex hn⟩, ?_⟩
  exact Nat.find_min' hex hlimit

/-- **Any sequence of outcomes leads to its end.** -/
theorem ends_courseOf {o : Nat → Attempted c} {n : Nat} (hn : IsLeast {i | Stops p what o i} n) :
    (withRetry p what c).Ends (courseOf p o n) (n, (o n).result p what) := by
  obtain ⟨⟨hpos, hfinal⟩, hleast⟩ := hn
  have hlimit : n ≤ attemptLimit p := hleast ⟨Nat.le_max_left .., .inr (Nat.le_refl _)⟩
  refine ends_withRetry_iff.2 ⟨_, _, rfl, ?_, hlimit, ?_, .ended (o n) hfinal⟩
  · simp only [List.length_map, List.length_range']
    omega
  · intro x hx
    obtain ⟨i, hi, rfl⟩ := List.mem_map.1 hx
    obtain ⟨hle, hlt⟩ := List.mem_range'_1.1 hi
    by_contra hnot
    have hstop : n ≤ i := hleast ⟨hle, .inl hnot⟩
    omega

/-- No attempt of several rounds was cut short, and neither was a pause. -/
theorem uncut_of_mem_rounds {number : Nat} {xs : List (Attempted c)} {e : Exchange}
    (he : e ∈ rounds p number xs) : e.showsCancellation = false := by
  induction xs generalizing number with
  | nil => cases he
  | cons x xs ih =>
    rcases List.mem_cons.1 he with rfl | he
    · cases x <;> rfl
    · rcases List.mem_cons.1 he with rfl | he
      · rfl
      · exact ih he

theorem callsOf_rounds {number : Nat} {xs : List (Attempted c)} :
    callsOf (rounds p number xs) = List.replicate xs.length c := by
  induction xs generalizing number with
  | nil => rfl
  | cons x xs ih =>
    rw [rounds, attemptOf, callsOf_attempt, callsOf_pause, ih, List.length_cons, List.replicate_succ]

theorem Last.callsOf_eq {n : Nat} {k : List Exchange} {result : Except Failure c.Answer}
    (hk : Last p what c n k result) : callsOf k = [c] := by
  cases hk <;> rfl

/-- **As many calls are made as there are attempts**, and all of them are the same. -/
theorem callsOf_withRetry {n : Nat} {result : Except Failure c.Answer}
    (hr : (withRetry p what c).Ends h (n, result)) : callsOf h = List.replicate n c := by
  obtain ⟨xs, k, rfl, rfl, -, -, hlast⟩ := ends_withRetry_iff.1 hr
  rw [callsOf_append, callsOf_rounds, hlast.callsOf_eq, Nat.add_comm, List.replicate_succ']

/-- What has happened when the loop ends: a first attempt was not made again, or a cancellation came
before that. -/
inductive Conclusion (p : SyncPolicy) (what : String) (c : Call) (h : List Exchange) (n : Nat) :
    Except Failure c.Answer → Prop
  | ended (o : Nat → Attempted c) (first : IsLeast {i | Stops p what o i} n)
    (exchanges_eq : h = courseOf p o n) : Conclusion p what c h n ((o n).result p what)
  /-- The last exchange tells of a cancellation, and only that one. -/
  | cancelled {before : List Exchange} {e : Exchange} (exchanges_eq : h = before ++ [e])
    (told : e.showsCancellation = true) (untold : ∀ e ∈ before, e.showsCancellation = false) :
    Conclusion p what c h n (.error .cancelled)

/-- The outcomes of some attempts and of one more. -/
def outcomesOf (xs : List (Attempted c)) (x : Attempted c) (i : Nat) : Attempted c :=
  xs.getD (i - 1) x

theorem courseOf_outcomesOf (xs : List (Attempted c)) (x : Attempted c) :
    courseOf p (outcomesOf xs x) (1 + xs.length) = rounds p 1 xs ++ [attemptOf p x] := by
  have hlast : outcomesOf xs x (1 + xs.length) = x := by simp [outcomesOf]
  have hfirst : (List.range' 1 (1 + xs.length - 1)).map (outcomesOf xs x) = xs := by
    refine List.ext_getElem (by simp) fun i hi hi' => ?_
    simp [outcomesOf, hi']
  rw [courseOf, hlast, hfirst]

/-- **There is no other way for the loop to end.** -/
theorem conclusion_of_ends {n : Nat} {result : Except Failure c.Answer}
    (hr : (withRetry p what c).Ends h (n, result)) : Conclusion p what c h n result := by
  obtain ⟨xs, k, rfl, rfl, hle, hxs, hlast⟩ := ends_withRetry_iff.1 hr
  have huncut : ∀ e ∈ rounds p 1 xs, e.showsCancellation = false := fun e he => uncut_of_mem_rounds he
  cases hlast with
  | ended x final =>
    have hx : outcomesOf xs x (1 + xs.length) = x := by simp [outcomesOf]
    have hfirst : IsLeast {i | Stops p what (outcomesOf xs x) i} (1 + xs.length) := by
      refine ⟨⟨by omega, by rwa [hx]⟩, fun i hi => ?_⟩
      obtain ⟨hpos, hstop⟩ := hi
      by_contra hlt
      have hi' : i - 1 < xs.length := by omega
      rcases hstop with hnot | hlimit
      · refine hnot ?_
        have heq : outcomesOf xs x i = xs[i - 1] := by simp [outcomesOf, hi']
        rw [heq]
        exact hxs _ (List.getElem_mem hi')
      · omega
    have hconclusion := Conclusion.ended (outcomesOf xs x) hfirst (courseOf_outcomesOf xs x).symm
    rwa [hx] at hconclusion
  | cancelled => exact .cancelled rfl rfl huncut
  | cutShort x passes left =>
    refine .cancelled (List.append_assoc _ [attemptOf p x] _).symm rfl fun e he => ?_
    rcases List.mem_append.1 he with he | he
    · exact huncut e he
    · obtain rfl := List.mem_singleton.1 he
      cases x <;> rfl

/-! ## Epochs -/

/-- The target that a call fetches. -/
def fetchedBy? : Call → Option FetchTarget
  | .fetch target _ _ => some target
  | _ => none

section

variable {trigger : Trigger} {t : List Moment} {epoch : Epoch}

theorem TargetCourse.attempts_eq {r : KindReport} {f : Fetched} {report : TargetReport}
    (hc : TargetCourse p r f h report) : report.attempts = f.attempts := by
  cases hc <;> rfl

/-- The calls of a job are the attempts that its result counts. -/
theorem callsOf_fetchOne {job : Job} {f : Fetched} (hr : (fetchOne p job).Ends h f) :
    f.target = job.1 ∧ callsOf h = List.replicate f.attempts (.fetch job.1 job.2 p.unzip) := by
  obtain ⟨k, _, ⟨n, result⟩, rfl, hk, hl⟩ := ends_bind.1 hr
  obtain ⟨rfl, rfl⟩ := ends_pure.1 hl
  rw [List.append_nil]
  exact ⟨rfl, callsOf_withRetry hk⟩

/-- The epoch itself fetches nothing. -/
theorem Run.fetchedBy?_epoch (run : Run p trigger t (.ended epoch)) {r : Request}
    (hr : r ∈ requests .epoch t) {c : Call} (hc : r.call? = some c) : fetchedBy? c = none := by
  rw [run.answered_all] at hr
  obtain ⟨e, he, rfl⟩ := List.mem_map.1 hr
  have hpart := run.answered_epoch he
  generalize e.request = q at hc hpart
  obtain hcheck | ⟨_, rfl | rfl | ⟨_, -, hconcerns⟩⟩ | hconclusion := hpart
  · cases q <;> cases hc <;> cases c <;> first | rfl | exact hcheck.elim
  · cases hc
  · cases hc
  · cases q <;> cases hc <;> cases c <;> first | rfl | exact hconcerns.elim
  · rw [call?_of_isOfConclusion hconclusion] at hc
    cases hc

/-- A job fetches its target and nothing else. -/
theorem Run.fetchedBy?_job (run : Run p trigger t (.ended epoch)) {jobs : List Job}
    {results : List Fetched} (fetched : Results p t jobs results) {n : Nat} {r : Request}
    (hr : r ∈ requests (.job n) t) {c : Call} (hc : r.call? = some c) :
    ∃ job, jobs[n]? = some job ∧ fetchedBy? c = some job.1 := by
  rw [run.answered_all] at hr
  obtain ⟨e, he, rfl⟩ := List.mem_map.1 hr
  have hlt : n < jobs.length := by
    by_contra hle
    rw [fetched.beyond n (by omega)] at he
    cases he
  obtain ⟨job, hjob, hends⟩ :=
    fetched.result n _ (List.getElem?_eq_getElem (by rwa [fetched.length_eq]))
  obtain ⟨_, hasks⟩ := Path.asks_of_mem hends he
  obtain ⟨hattempt | ⟨length, hpause⟩, -⟩ := asks_fetchOne hasks
  · rw [hattempt] at hc
    obtain rfl := Option.some.inj hc
    exact ⟨job, hjob, rfl⟩
  · rw [hpause] at hc
    cases hc

/-- **The attempts that are reported of a target are the calls that were made for it.** -/
theorem Run.attempts_eq (run : Run p trigger t (.ended epoch)) {r : KindReport}
    (hr : r ∈ epoch.kinds) {report : TargetReport} (hreport : report ∈ r.targets) :
    report.attempts = ((calls t).filter fun c => fetchedBy? c = some report.target).length := by
  obtain ⟨m, stored, sels, results, sel, k, -, completed, -, processed⟩ := run.processed_of_report hr
  obtain ⟨-, -, -, k', -, hcourses⟩ := report_of_ends_processKind processed.ends
  obtain ⟨f, hf, k'', -, hcourse⟩ := hcourses.exists_of_mem.2 report hreport
  rw [hcourse.attempts_eq, hcourse.target_eq]
  obtain ⟨n, hn⟩ := List.mem_iff_getElem?.1 (List.mem_of_mem_filter hf)
  obtain ⟨job, hjob, hends⟩ := completed.fetched.result n f hn
  obtain ⟨htarget, hcalls⟩ := callsOf_fetchOne hends
  -- No other worker fetches the target: the epoch fetches nothing, and the jobs differ in theirs.
  have hothers : ∀ v q, Moment.asked v q ∈ t → v ≠ .job n → ∀ c, q.call? = some c →
      decide (fetchedBy? c = some f.target) = false := by
    intro v q hq hv c hc
    rw [decide_eq_false_iff_not]
    intro hsame
    cases v with
    | epoch =>
      rw [run.fetchedBy?_epoch (mem_requests.2 hq) hc] at hsame
      cases hsame
    | job i =>
      obtain ⟨other, hother, hfetched⟩ := run.fetchedBy?_job completed.fetched (mem_requests.2 hq) hc
      have htargets : other.1 = job.1 := by
        rw [hfetched] at hsame
        rw [← htarget]
        exact Option.some.inj hsame
      have heq : ((sels.flatMap Selection.jobs).map (·.1))[i]? =
          ((sels.flatMap Selection.jobs).map (·.1))[n]? := by
        rw [List.getElem?_map, List.getElem?_map, hother, hjob]
        exact congrArg some htargets
      have hlt : i < ((sels.flatMap Selection.jobs).map (·.1)).length := by
        rw [List.length_map]
        exact (List.getElem?_eq_some_iff.1 hother).1
      have hnodup := run.nodup_selected completed.selections_eq
      exact hv (congrArg Worker.job (List.getElem?_inj hlt hnodup |>.1 heq))
  rw [filter_calls_eq hothers, run.answered_all, List.filterMap_map]
  show _ = ((callsOf (exchanges (.job n) t)).filter _).length
  rw [hcalls, List.filter_eq_self.2, List.length_replicate]
  intro c hc
  obtain rfl := List.eq_of_mem_replicate hc
  rw [htarget]
  exact decide_eq_true rfl

end

end ContentSync.Engine
