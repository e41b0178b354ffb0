import ContentSync.Proofs.Engine.Buffer
import ContentSync.Proofs.Engine.Run

/-!
# Histories account for situations

Whatever happens in a run, the exchanges of each worker are a path through its program, and the
situation is where these paths lead.

* `exchanges`, `requests`, `selections` — what one worker has done, read off a history;
* `Accounts` — how the paths of all workers lead to a situation;
* `Accounts.step`, `Run.accounts` — every step keeps the accounts, and so does every run;
* `Run.balance` — at most the last request of the epoch has no answer.
-/

set_option autoImplicit false

namespace ContentSync.Engine

open Program

/-- The exchanges of a worker. -/
def exchanges (w : Worker) (t : List Moment) : List Exchange :=
  t.filterMap fun m =>
    match m with
    | .answered v e => if v = w then some e else none
    | _ => none

/-- The requests of a worker, answered or not. -/
def requests (w : Worker) (t : List Moment) : List Request :=
  t.filterMap fun m =>
    match m with
    | .asked v r => if v = w then some r else none
    | _ => none

/-- The jobs that have been selected. -/
def selections (t : List Moment) : List (List Job) :=
  t.filterMap fun m =>
    match m with
    | .selected jobs _ => some jobs
    | _ => none

section

variable {w v : Worker} {t u : List Moment} {m : Moment} {e : Exchange} {jobs : List Job}

@[simp] theorem exchanges_append : exchanges w (t ++ u) = exchanges w t ++ exchanges w u :=
  List.filterMap_append

@[simp] theorem requests_append : requests w (t ++ u) = requests w t ++ requests w u :=
  List.filterMap_append

@[simp] theorem selections_append : selections (t ++ u) = selections t ++ selections u :=
  List.filterMap_append

@[simp] theorem exchanges_nil : exchanges w [] = [] := rfl

@[simp] theorem exchanges_cancelled : exchanges w [.cancelled] = [] := rfl

@[simp] theorem exchanges_asked {r : Request} : exchanges w [.asked v r] = [] := rfl

@[simp] theorem exchanges_answered : exchanges w [.answered v e] = if v = w then [e] else [] := by
  unfold exchanges
  split <;> simp [*]

@[simp] theorem exchanges_selected {shown : Phase} : exchanges w [.selected jobs shown] = [] := rfl

@[simp] theorem exchanges_progressed {shown : Phase} : exchanges w [.progressed shown] = [] := rfl

@[simp] theorem requests_nil : requests w [] = [] := rfl

@[simp] theorem requests_cancelled : requests w [.cancelled] = [] := rfl

@[simp] theorem requests_asked {r : Request} :
    requests w [.asked v r] = if v = w then [r] else [] := by
  unfold requests
  split <;> simp [*]

@[simp] theorem requests_answered : requests w [.answered v e] = [] := rfl

@[simp] theorem requests_selected {shown : Phase} : requests w [.selected jobs shown] = [] := rfl

@[simp] theorem requests_progressed {shown : Phase} : requests w [.progressed shown] = [] := rfl

@[simp] theorem selections_nil : selections [] = [] := rfl

@[simp] theorem selections_cancelled : selections [.cancelled] = [] := rfl

@[simp] theorem selections_selected {shown : Phase} :
    selections [.selected jobs shown] = [jobs] := rfl

@[simp] theorem selections_progressed {shown : Phase} : selections [.progressed shown] = [] := rfl

theorem mem_exchanges : e ∈ exchanges w t ↔ Moment.answered w e ∈ t := by
  simp only [exchanges, List.mem_filterMap]
  constructor
  · rintro ⟨m, hm, heq⟩
    split at heq
    · split at heq
      · cases heq
        rename_i hw
        exact hw ▸ hm
      · cases heq
    · cases heq
  · exact fun hm => ⟨_, hm, by simp⟩

theorem mem_requests {r : Request} : r ∈ requests w t ↔ Moment.asked w r ∈ t := by
  simp only [requests, List.mem_filterMap]
  constructor
  · rintro ⟨m, hm, heq⟩
    split at heq
    · split at heq
      · cases heq
        rename_i hw
        exact hw ▸ hm
      · cases heq
    · cases heq
  · exact fun hm => ⟨_, hm, by simp⟩

/-- A moment of one thread is no exchange of another one, and selects nothing. -/
theorem Thread.Step.other {α : Type} {cancelled : Bool} {th th' : Thread α}
    (hs : th.Step v cancelled m th') (hw : v ≠ w) :
    exchanges w [m] = [] ∧ requests w [m] = [] := by
  cases hs <;> simp [hw]

theorem Thread.Step.selections_eq {α : Type} {cancelled : Bool} {th th' : Thread α}
    (hs : th.Step v cancelled m th') : selections [m] = [] := by
  cases hs <;> rfl

/-- A step of a thread is a step on a path. -/
theorem Thread.Step.path {α : Type} {cancelled : Bool} {th th' : Thread α}
    (hs : th.Step v cancelled m th') {origin : Program α} {h : List Exchange}
    (hp : origin.Path h th.program) : origin.Path (h ++ exchanges v [m]) th'.program := by
  cases hs with
  | ask r next => simpa using hp
  | answer r next a ha => simpa using Path.answer hp a

end

/-! ## Accounts -/

/-- Every request of the epoch has been answered. -/
def Balanced (t : List Moment) : Prop :=
  requests .epoch t = (exchanges .epoch t).map (·.request)

theorem Balanced.append {t u : List Moment} (hb : Balanced t) (hx : exchanges .epoch u = [])
    (hr : requests .epoch u = []) : Balanced (t ++ u) := by
  simpa [Balanced, hx, hr] using hb

/-- Where the epoch's own program stands. -/
structure Thread.Accounts {α : Type} (origin : Program α) (t : List Moment) (h : List Exchange)
    (th : Thread α) : Prop where
  path : origin.Path h th.program
  /-- Of the requests, only the pending one has no answer. -/
  requests_eq : requests .epoch t = (exchanges .epoch t).map (·.request) ++ th.pending
  /-- A program that goes on has just been answered. -/
  last_eq : th.pending = [] →
    h = [] ∨ ∃ e, h.getLast? = some e ∧ t.getLast? = some (.answered .epoch e)

/-- A result belongs to the job with a number. -/
def JobResult (p : SyncPolicy) (t : List Moment) (jobs : List Job) (i : Nat) (result : Fetched) :
    Prop :=
  ∃ job, jobs[i]? = some job ∧ (fetchOne p job).Ends (exchanges (.job i) t) result

/-- There is a result for each job, in order. -/
structure Results (p : SyncPolicy) (t : List Moment) (jobs : List Job) (results : List Fetched) :
    Prop where
  length_eq : results.length = jobs.length
  result : ∀ i result, results[i]? = some result → JobResult p t jobs i result
  beyond : ∀ n, jobs.length ≤ n → exchanges (.job n) t = []

/-- Where the fetches stand. -/
structure Launched (p : SyncPolicy) (t : List Moment) (jobs : List Job) (f : Fetching)
    (slots : List (Nat × Thread Fetched)) : Prop where
  fits : f.Fits jobs (JobResult p t jobs)
  numbers : slots.map (·.1) = Fetching.unresolved f.held
  threads : ∀ slot ∈ slots, ∃ job, jobs[slot.1]? = some job ∧
    (fetchOne p job).Path (exchanges (.job slot.1) t) slot.2.program
  unstarted : ∀ n, f.started ≤ n → exchanges (.job n) t = []

/-- How a history leads to a situation. -/
inductive Accounts (p : SyncPolicy) (trigger : Trigger) (t : List Moment) : Situation → Prop
  | checking {th : Thread Checked}
    (thread : th.Accounts (checking p trigger) t (exchanges .epoch t))
    (untouched : ∀ n, exchanges (.job n) t = []) (unselected : selections t = []) :
    Accounts p trigger t (.checking th)
  | fetching {epoch : Epoch} {f : Fetching} {slots : List (Nat × Thread Fetched)}
    {jobs : List Job} (checked : (checking p trigger).Ends (exchanges .epoch t) (.ready epoch jobs))
    (answered : Balanced t)
    (selected : selections t = [jobs]) (launched : Launched p t jobs f slots) :
    Accounts p trigger t (.fetching epoch f slots)
  | concluding {th : Thread Epoch} {epoch : Epoch} {h k : List Exchange}
    (split : exchanges .epoch t = h ++ k)
    (checked : (checking p trigger).Ends h (.stopped epoch)) (unselected : selections t = [])
    (thread : th.Accounts (concluding epoch) t k) : Accounts p trigger t (.writing th)
  | writing {th : Thread Epoch} {epoch : Epoch} {jobs : List Job} {results : List Fetched}
    {h k : List Exchange} (split : exchanges .epoch t = h ++ k)
    (checked : (checking p trigger).Ends h (.ready epoch jobs)) (selected : selections t = [jobs])
    (fetched : Results p t jobs results)
    (thread : th.Accounts (writing p epoch results >>= concluding) t k) :
    Accounts p trigger t (.writing th)

section

variable {p : SyncPolicy} {trigger : Trigger} {t u : List Moment} {m : Moment}
  {cancelled : Bool} {jobs : List Job}

theorem Thread.Accounts.step {α : Type} {origin : Program α} {h : List Exchange}
    {th th' : Thread α} (ha : th.Accounts origin t h) (hs : th.Step .epoch cancelled m th') :
    th'.Accounts origin (t ++ [m]) (h ++ exchanges .epoch [m]) := by
  refine ⟨hs.path ha.path, ?_, ?_⟩
  · have heq := ha.requests_eq
    cases hs with
    | ask r next => simpa using heq
    | answer r next a _ =>
      simp only [requests_append, exchanges_append, List.map_append, heq]
      simp
  · cases hs with
    | ask r next => nofun
    | answer r next a _ => exact fun _ => .inr ⟨⟨r, a⟩, by simp, by simp⟩

/-- Nothing changes for a program that waits. -/
theorem Thread.Accounts.cancel {α : Type} {origin : Program α} {h : List Exchange}
    {th : Thread α} (ha : th.Accounts origin t h) (hrest : th.AtRest) :
    th.Accounts origin (t ++ [.cancelled]) h := by
  refine ⟨ha.path, ?_, ?_⟩
  · simpa using ha.requests_eq
  · cases th with
    | running => exact hrest.elim
    | waiting => nofun

theorem Thread.accounts_start {α : Type} (origin : Program α)
    (hreq : Balanced t) : (Thread.running origin).Accounts origin t [] :=
  ⟨.here _, by simpa [Balanced] using hreq, fun _ => .inl rfl⟩

theorem Thread.Accounts.balanced {α : Type} {origin : Program α} {h : List Exchange}
    {p : Program α} (ha : (Thread.running p).Accounts origin t h) : Balanced t := by
  simpa [Balanced] using ha.requests_eq

/-- A program that has come to a request and waits for no other answer has just been answered. -/
theorem Thread.Accounts.last_of_balanced {α : Type} {origin : Program α} {h : List Exchange}
    {th : Thread α} (ha : th.Accounts origin t h) (hb : Balanced t) :
    h = [] ∨ ∃ e, h.getLast? = some e ∧ t.getLast? = some (.answered .epoch e) := by
  apply ha.last_eq
  have heq := ha.requests_eq
  rwa [show requests .epoch t = _ from hb, List.self_eq_append_right] at heq

/-- The result of a job stays when other workers go on. -/
theorem JobResult.append {i : Nat} {result : Fetched} (hr : JobResult p t jobs i result)
    (hu : exchanges (.job i) u = []) : JobResult p (t ++ u) jobs i result := by
  obtain ⟨job, hjob, hends⟩ := hr
  exact ⟨job, hjob, by simpa [hu] using hends⟩

theorem Results.append {results : List Fetched} (hr : Results p t jobs results)
    (hu : ∀ n, exchanges (.job n) u = []) : Results p (t ++ u) jobs results :=
  ⟨hr.length_eq, fun i result hi => (hr.result i result hi).append (hu i),
    fun n hn => by simp [hr.beyond n hn, hu n]⟩

theorem Launched.append {f : Fetching} {slots : List (Nat × Thread Fetched)}
    (hl : Launched p t jobs f slots) (hu : ∀ n, exchanges (.job n) u = []) :
    Launched p (t ++ u) jobs f slots where
  fits := hl.fits.mono fun _ _ _ hr => hr.append (hu _)
  numbers := hl.numbers
  threads := by
    intro slot hslot
    obtain ⟨job, hjob, hpath⟩ := hl.threads slot hslot
    exact ⟨job, hjob, by simpa [hu] using hpath⟩
  unstarted := by
    intro n hn
    simp [hl.unstarted n hn, hu]

theorem launched_create {limit : Nat} (hu : ∀ n, exchanges (.job n) t = []) :
    Launched p t jobs (.create limit jobs) [] where
  fits := Fetching.fits_create limit
  numbers := rfl
  threads := fun _ hslot => absurd hslot List.not_mem_nil
  unstarted := fun n _ => hu n

theorem Launched.launch {f g : Fetching} {slots : List (Nat × Thread Fetched)} {number : Nat}
    {job : Job} (hl : Launched p t jobs f slots) (hn : f.next? = some (number, job, g)) :
    Launched p t jobs g (slots ++ [(number, .running (fetchOne p job))]) where
  fits := hl.fits.launch hn
  numbers := by
    rw [Fetching.unresolved_launch hn, List.map_append, hl.numbers]
    rfl
  threads := by
    intro slot hslot
    obtain hslot | hslot := List.mem_append.1 hslot
    · exact hl.threads slot hslot
    · rw [List.mem_singleton] at hslot
      subst hslot
      refine ⟨job, hl.fits.job_eq hn, ?_⟩
      obtain ⟨_, -, rfl, -⟩ := Fetching.next?_eq_some hn
      rw [hl.unstarted _ (Nat.le_refl _)]
      exact .here _
  unstarted := by
    intro n hle
    apply hl.unstarted n
    obtain ⟨_, -, -, rfl⟩ := Fetching.next?_eq_some hn
    simp only [Fetching.started, List.length_append, List.length_singleton] at hle ⊢
    omega

theorem Launched.results {f : Fetching} {slots : List (Nat × Thread Fetched)}
    (hl : Launched p t jobs f slots) (hover : f.isOver = true) : Results p t jobs f.taken := by
  obtain ⟨hlength, hresults⟩ := hl.fits.results hover
  refine ⟨hlength, hresults, fun n hn => hl.unstarted n ?_⟩
  simp only [Fetching.isOver, Bool.and_eq_true, List.isEmpty_iff] at hover
  rw [Fetching.started, hover.2, List.length_nil]
  omega

section

variable {f : Fetching} {before after : List (Nat × Thread Fetched)} {number : Nat}
  {th th' : Thread Fetched}

/-- The numbers of the jobs under way are different. -/
theorem Launched.number_ne (hl : Launched p t jobs f (before ++ (number, th) :: after))
    {slot : Nat × Thread Fetched} (hslot : slot ∈ before ++ after) : slot.1 ≠ number := by
  have hnodup := hl.fits.nodup_unresolved
  rw [← hl.numbers, List.map_append, List.map_cons, List.nodup_append] at hnodup
  obtain ⟨-, htail, hne⟩ := hnodup
  obtain hslot | hslot := List.mem_append.1 hslot
  · exact hne _ (List.mem_map_of_mem hslot) _ List.mem_cons_self
  · intro heq
    exact (List.nodup_cons.1 htail).1 (List.mem_map.2 ⟨slot, hslot, heq⟩)

theorem Launched.number_lt (hl : Launched p t jobs f (before ++ (number, th) :: after)) :
    number < f.started := by
  have hmem : number ∈ Fetching.unresolved f.held := by
    rw [← hl.numbers]
    simp
  obtain ⟨s, hs, -, rfl⟩ := Fetching.mem_unresolved.1 hmem
  obtain ⟨i, hi⟩ := List.mem_iff_getElem?.1 hs
  rw [hl.fits.number_eq i s hi, Fetching.started]
  have := (List.getElem?_eq_some_iff.1 hi).1
  omega

theorem Launched.fetch (hl : Launched p t jobs f (before ++ (number, th) :: after))
    (hs : th.Step (.job number) cancelled m th') :
    Launched p (t ++ [m]) jobs f (before ++ (number, th') :: after) where
  fits := by
    refine hl.fits.mono fun i result hi hr => hr.append (hs.other ?_).1
    rintro ⟨⟩
    apply hi
    rw [← hl.numbers]
    simp
  numbers := by
    rw [← hl.numbers]
    simp
  threads := by
    intro slot hslot
    obtain rfl | hrest := List.mem_cons.1 (List.perm_middle.mem_iff.1 hslot)
    · have hself := hl.threads (number, th) (by simp)
      obtain ⟨job, hjob, hpath⟩ := hself
      exact ⟨job, hjob, by simpa using hs.path hpath⟩
    · obtain ⟨job, hjob, hpath⟩ :=
        hl.threads slot (List.perm_middle.mem_iff.2 (List.mem_cons_of_mem _ hrest))
      have hne : Worker.job number ≠ .job slot.1 := fun heq =>
        hl.number_ne hrest (Worker.job.inj heq).symm
      exact ⟨job, hjob, by simpa [(hs.other hne).1] using hpath⟩
  unstarted := by
    intro n hn
    have hne : Worker.job number ≠ .job n := by
      rintro ⟨⟩
      exact absurd hl.number_lt (by omega)
    simp [hl.unstarted n hn, (hs.other hne).1]

theorem Launched.land {result : Fetched}
    (hl : Launched p t jobs f (before ++ (number, .running (.done result)) :: after)) :
    Launched p t jobs (f.finish number result) (before ++ after) where
  fits := by
    obtain ⟨job, hjob, hpath⟩ := hl.threads (number, .running (.done result)) (by simp)
    exact hl.fits.land ⟨job, hjob, hpath⟩
  numbers := by
    have hkept : ((before ++ after).map (·.1)).filter (fun n => n ≠ number)
        = (before ++ after).map (·.1) := by
      rw [List.filter_eq_self]
      intro n hn
      obtain ⟨slot, hslot, rfl⟩ := List.mem_map.1 hn
      simpa using hl.number_ne hslot
    rw [Fetching.unresolved_land, ← hl.numbers, ← hkept]
    simp [List.filter_append]
  threads := by
    intro slot hslot
    exact hl.threads slot (List.perm_middle.mem_iff.2 (List.mem_cons_of_mem _ hslot))
  unstarted := by
    intro n hn
    apply hl.unstarted n
    rwa [Fetching.started_finish] at hn

end

/-- **A step keeps the accounts.** -/
theorem Accounts.step {s s' : Situation} {cancelled : Bool} {o : Option Moment}
    (ha : Accounts p trigger t s) (hs : s.Step p cancelled o s') :
    Accounts p trigger (t ++ o.toList) s' := by
  cases hs with
  | @check th th' m hth =>
    cases ha with
    | checking thread untouched unselected =>
      refine .checking ?_ (fun n => ?_) ?_
      · simpa using thread.step hth
      · simp [untouched n, (hth.other (w := .job n) nofun).1]
      · simp [unselected, hth.selections_eq]
  | stop epoch =>
    cases ha with
    | checking thread untouched unselected =>
      simp only [Option.toList_none, List.append_nil]
      refine .concluding (List.append_nil _).symm thread.path unselected ?_
      exact Thread.accounts_start _ thread.balanced
  | @select epoch jobs f hf =>
    cases ha with
    | checking thread untouched unselected =>
      have hends : (Engine.checking p trigger).Ends (exchanges .epoch t) (.ready epoch jobs) :=
        thread.path
      have hselections : selections (t ++ [.selected jobs f.phase]) = [jobs] := by
        simp [unselected]
      refine .fetching ?_ ?_ hselections ?_
      · simpa using hends
      · exact thread.balanced.append rfl rfl
      · subst hf
        exact launched_create fun n => by simp [untouched n]
  | launch hf =>
    cases ha with
    | fetching checked answered selected launched =>
      simp only [Option.toList_none, List.append_nil]
      exact .fetching checked answered selected (launched.launch hf)
  | @fetch epoch f before after number th th' m hth =>
    cases ha with
    | fetching checked answered selected launched =>
      obtain ⟨hex, hreq⟩ := hth.other (w := .epoch) nofun
      refine .fetching ?_ ?_ ?_ (launched.fetch hth)
      · simpa [hex] using checked
      · exact answered.append hex hreq
      · simp [selected, hth.selections_eq]
  | land result =>
    cases ha with
    | fetching checked answered selected launched =>
      refine .fetching ?_ ?_ ?_ (launched.land.append fun _ => rfl)
      · simpa using checked
      · exact answered.append rfl rfl
      · simp [selected]
  | collect hf =>
    cases ha with
    | fetching checked answered selected launched =>
      simp only [Option.toList_none, List.append_nil]
      exact .writing (List.append_nil _).symm checked selected (launched.results hf)
        (Thread.accounts_start _ answered)
  | @write th th' m hth =>
    have hother : ∀ n, exchanges (.job n) [m] = [] := fun n =>
      (hth.other (w := .job n) nofun).1
    cases ha with
    | concluding split checked unselected thread =>
      refine .concluding ?_ checked ?_ (thread.step hth)
      · simp [split]
      · simp [unselected, hth.selections_eq]
    | writing split checked selected fetched thread =>
      refine .writing ?_ checked ?_ (fetched.append hother) (thread.step hth)
      · simp [split]
      · simp [selected, hth.selections_eq]

/-- A cancellation keeps the accounts. -/
theorem Accounts.cancel {s : Situation} (ha : Accounts p trigger t s) (hrest : s.AtRest) :
    Accounts p trigger (t ++ [.cancelled]) s := by
  cases ha with
  | checking thread untouched unselected =>
    refine .checking ?_ (fun n => ?_) ?_
    · simpa using thread.cancel hrest
    · simpa using untouched n
    · simpa using unselected
  | fetching checked answered selected launched =>
    refine .fetching ?_ ?_ ?_ (launched.append fun _ => rfl)
    · simpa using checked
    · exact answered.append rfl rfl
    · simpa using selected
  | concluding split checked unselected thread =>
    refine .concluding ?_ checked ?_ (thread.cancel hrest)
    · simpa using split
    · simpa using unselected
  | writing split checked selected fetched thread =>
    refine .writing ?_ checked ?_ (fetched.append fun _ => rfl) (thread.cancel hrest)
    · simpa using split
    · simpa using selected

/-- **Every run keeps the accounts.** -/
theorem Run.accounts {s : Situation} (run : Run p trigger t s) : Accounts p trigger t s := by
  induction run with
  | start => exact .checking (Thread.accounts_start _ rfl) (fun _ => rfl) rfl
  | startCancelled => exact .checking (Thread.accounts_start _ rfl) (fun _ => rfl) rfl
  | step _ hs ih => exact ih.step hs
  | cancel _ hrest _ ih => exact ih.cancel hrest

theorem Thread.length_pending_le {α : Type} (th : Thread α) : th.pending.length ≤ 1 := by
  cases th with
  | running => exact Nat.zero_le _
  | waiting => exact Nat.le_refl _

/-- At most the last request of the epoch has no answer. -/
theorem Run.balance {s : Situation} (run : Run p trigger t s) :
    ∃ l, requests .epoch t = (exchanges .epoch t).map (·.request) ++ l ∧ l.length ≤ 1 := by
  cases run.accounts with
  | checking thread => exact ⟨_, thread.requests_eq, Thread.length_pending_le _⟩
  | fetching checked answered => exact ⟨[], by simpa [Balanced] using answered, Nat.zero_le _⟩
  | concluding split checked unselected thread =>
    exact ⟨_, thread.requests_eq, Thread.length_pending_le _⟩
  | writing split checked selected fetched thread =>
    exact ⟨_, thread.requests_eq, Thread.length_pending_le _⟩

end

end ContentSync.Engine
