import ContentSync.Proofs.Engine.Asked
import ContentSync.Proofs.Engine.Length
import ContentSync.Proofs.Engine.Progress
import ContentSync.Proofs.Engine.Solo

/-!
# The pool of fetches

Targets are fetched several at a time. Here any list of jobs is fetched, whichever epoch asks for it, and
what is under way is read off what has happened and not off the buffer.

* `Beat`, `Pool.Step`, `Pool.Reached` — what happens while some jobs are fetched;
* `inFlight`, `heldBack` — the jobs that have not ended, and those whose results cannot be taken yet;
* `Tally` / `Pool.Reached.tally` — the buffer keeps track of what has happened;
* `Tally.held_eq` — its slots are held by the jobs that are held back;
* `Orderly`, `Gathered` — jobs are started in order, one only while a slot is free, and their results
  are gathered in order;
* `Run.reached` — the fetches of every epoch are of this kind;
* `fetching_bounded` — all of it together.
-/

set_option autoImplicit false

namespace ContentSync.Engine

open Program

/-! ## What happens -/

/-- Something that happens while jobs are fetched. -/
inductive Beat where
  | cancelled
  /-- A job is started. It gets a number. -/
  | started (job : Job) (number : Nat)
  /-- A job that has been started makes a request, or is answered. -/
  | went (m : Moment)
  /-- A job has ended: it has made its last attempt. -/
  | ended (number : Nat) (result : Fetched)

/-- What has happened to the jobs and their requests. -/
def moments (b : List Beat) : List Moment :=
  b.filterMap fun beat =>
    match beat with
    | .cancelled => some .cancelled
    | .went m => some m
    | .started _ _ | .ended _ _ => none

/-- The jobs that have been started, with their numbers. -/
def starts (b : List Beat) : List (Job × Nat) :=
  b.filterMap fun beat =>
    match beat with
    | .started job number => some (job, number)
    | _ => none

/-- The results of the jobs that have ended. -/
def ends (b : List Beat) : List (Nat × Fetched) :=
  b.filterMap fun beat =>
    match beat with
    | .ended number result => some (number, result)
    | _ => none

/-- The job with a number has ended. -/
def HasEnded (b : List Beat) (number : Nat) : Prop := number ∈ (ends b).map (·.1)

instance (b : List Beat) (number : Nat) : Decidable (HasEnded b number) :=
  inferInstanceAs (Decidable (number ∈ (ends b).map (·.1)))

/-- The jobs that have been started and have not ended, whether they wait for an answer or pause before
another attempt. -/
def inFlight (b : List Beat) : List Nat :=
  ((starts b).map (·.2)).filter fun number => ¬ HasEnded b number

/-- The jobs that have been started and whose results cannot be taken: an earlier one has not ended, or
they have not ended themselves. -/
def heldBack (b : List Beat) : List Nat :=
  ((starts b).map (·.2)).filter fun number => ∃ earlier ≤ number, ¬ HasEnded b earlier

section

variable {b c : List Beat}

@[simp] theorem moments_append : moments (b ++ c) = moments b ++ moments c := List.filterMap_append

@[simp] theorem starts_append : starts (b ++ c) = starts b ++ starts c := List.filterMap_append

@[simp] theorem ends_append : ends (b ++ c) = ends b ++ ends c := List.filterMap_append

@[simp] theorem moments_cancelled : moments [.cancelled] = [.cancelled] := rfl

@[simp] theorem moments_started {job : Job} {number : Nat} : moments [.started job number] = [] := rfl

@[simp] theorem moments_went {m : Moment} : moments [.went m] = [m] := rfl

@[simp] theorem moments_ended {number : Nat} {result : Fetched} :
    moments [.ended number result] = [] := rfl

@[simp] theorem starts_cancelled : starts [.cancelled] = [] := rfl

@[simp] theorem starts_started {job : Job} {number : Nat} :
    starts [.started job number] = [(job, number)] := rfl

@[simp] theorem starts_went {m : Moment} : starts [.went m] = [] := rfl

@[simp] theorem starts_ended {number : Nat} {result : Fetched} : starts [.ended number result] = [] := rfl

@[simp] theorem ends_cancelled : ends [.cancelled] = [] := rfl

@[simp] theorem ends_started {job : Job} {number : Nat} : ends [.started job number] = [] := rfl

@[simp] theorem ends_went {m : Moment} : ends [.went m] = [] := rfl

@[simp] theorem ends_ended {number : Nat} {result : Fetched} :
    ends [.ended number result] = [(number, result)] := rfl

theorem hasEnded_of_mem {x : Nat × Fetched} (h : x ∈ ends b) : HasEnded b x.1 := List.mem_map_of_mem h

/-- What is in flight is held back. -/
theorem length_inFlight_le (b : List Beat) : (inFlight b).length ≤ (heldBack b).length := by
  rw [inFlight, heldBack, ← List.countP_eq_length_filter, ← List.countP_eq_length_filter]
  apply List.countP_mono_left
  intro number _ h
  have hopen : ¬ HasEnded b number := by simpa using h
  exact decide_eq_true ⟨number, Nat.le_refl _, hopen⟩

end

/-! ## The pool -/

/-- A buffer of jobs, and what those do that are under way. -/
structure Pool where
  buffer : Fetching
  slots : List (Nat × Thread Fetched)

namespace Pool

/-- No job has been started. -/
def create (p : SyncPolicy) (jobs : List Job) : Pool := ⟨.create p.maxConcurrentFetches jobs, []⟩

/-- What can happen next. -/
inductive Step (p : SyncPolicy) (cancelled : Bool) : Pool → Beat → Pool → Prop
  | launch {f g : Fetching} {slots : List (Nat × Thread Fetched)} {number : Nat} {job : Job}
    (hf : f.next? = some (number, job, g)) :
    Step p cancelled ⟨f, slots⟩ (.started job number)
      ⟨g, slots ++ [(number, .running (fetchOne p job))]⟩
  | fetch {f : Fetching} {before after : List (Nat × Thread Fetched)} {number : Nat}
    {th th' : Thread Fetched} {m : Moment} (hth : th.Step (.job number) cancelled m th') :
    Step p cancelled ⟨f, before ++ (number, th) :: after⟩ (.went m)
      ⟨f, before ++ (number, th') :: after⟩
  | land {f : Fetching} {before after : List (Nat × Thread Fetched)} {number : Nat}
    (result : Fetched) :
    Step p cancelled ⟨f, before ++ (number, .running (.done result)) :: after⟩ (.ended number result)
      ⟨f.finish number result, before ++ after⟩

/-- What can have happened while some jobs are fetched, and where they stand then. They may be cancelled
at any time, also before the first of them is started. -/
inductive Reached (p : SyncPolicy) (jobs : List Job) : List Beat → Pool → Prop
  | start : Reached p jobs [] (.create p jobs)
  | step {b : List Beat} {pool pool' : Pool} {beat : Beat} (reached : Reached p jobs b pool)
    (hs : pool.Step p (wasCancelled (moments b)) beat pool') : Reached p jobs (b ++ [beat]) pool'
  | cancel {b : List Beat} {pool : Pool} (reached : Reached p jobs b pool)
    (hc : wasCancelled (moments b) = false) : Reached p jobs (b ++ [.cancelled]) pool

/-- Every job was the next one when it was started. -/
theorem Reached.next? {p : SyncPolicy} {jobs : List Job} {b c : List Beat} {pool : Pool} {job : Job}
    {number : Nat} (reached : Reached p jobs (b ++ .started job number :: c) pool) :
    ∃ pool' g, Reached p jobs b pool' ∧ pool'.buffer.next? = some (number, job, g) := by
  generalize hb : b ++ .started job number :: c = d at reached
  induction reached generalizing c with
  | start => simp at hb
  | @step d pool pool' beat reached hs ih =>
    obtain rfl | ⟨c, x, rfl⟩ := c.eq_nil_or_concat
    · obtain ⟨rfl, hbeat⟩ := List.append_inj' hb rfl
      obtain rfl : Beat.started job number = beat := (List.cons.inj hbeat).1
      cases hs with
      | launch hf => exact ⟨_, _, reached, hf⟩
    · rw [List.concat_eq_append, ← List.cons_append, ← List.append_assoc] at hb
      exact ih (List.append_inj' hb rfl).1
  | @cancel d pool reached hc ih =>
    obtain rfl | ⟨c, x, rfl⟩ := c.eq_nil_or_concat
    · obtain ⟨-, hbeat⟩ := List.append_inj' hb rfl
      cases hbeat
    · rw [List.concat_eq_append, ← List.cons_append, ← List.append_assoc] at hb
      exact ih (List.append_inj' hb rfl).1

end Pool

/-! ## Tallies -/

/-- How the buffer keeps track of what has happened. -/
structure Tally (p : SyncPolicy) (jobs : List Job) (b : List Beat) (pool : Pool) : Prop where
  launched : Launched p (moments b) jobs pool.buffer pool.slots
  kept : pool.buffer.Fits jobs fun number result => (number, result) ∈ ends b
  limit_eq : pool.buffer.limit = max p.maxConcurrentFetches 1
  held_le : pool.buffer.held.length ≤ pool.buffer.limit
  fronted : pool.buffer.Fronted
  starts_eq : starts b = (jobs.take pool.buffer.started).zipIdx
  hasEnded_iff : ∀ number, HasEnded b number ↔
    number < pool.buffer.started ∧ number ∉ Fetching.unresolved pool.buffer.held
  nodup : ((ends b).map (·.1)).Nodup
  results : ∀ x ∈ ends b, JobResult p (moments b) jobs x.1 x.2

section

variable {p : SyncPolicy} {jobs : List Job} {b : List Beat} {pool pool' : Pool} {beat : Beat}

theorem tally_create (p : SyncPolicy) (jobs : List Job) : Tally p jobs [] (.create p jobs) where
  launched := launched_create fun _ => rfl
  kept := Fetching.fits_create _
  limit_eq := rfl
  held_le := Nat.zero_le _
  fronted := Fetching.fronted_create ..
  starts_eq := rfl
  hasEnded_iff number := by simp [HasEnded, ends, Pool.create, Fetching.create, Fetching.started]
  nodup := List.nodup_nil
  results := nofun

theorem Fetching.length_held_finish_le (f : Fetching) (number : Nat) (result : Fetched) :
    (f.finish number result).held.length ≤ f.held.length := by
  have hstarted := started_finish f number result
  have htaken : f.taken.length ≤ (f.finish number result).taken.length := by
    rw [show (f.finish number result).taken = f.taken ++ _ from rfl, List.length_append]
    exact Nat.le_add_right ..
  rw [started, started] at hstarted
  omega

/-- A job is started only while a slot is free. -/
theorem Fetching.length_held_of_next? {f g : Fetching} {number : Nat} {job : Job}
    (hf : f.next? = some (number, job, g)) : f.held.length < f.limit := by
  unfold next? at hf
  split at hf
  · cases hf
  · split at hf
    · assumption
    · cases hf

/-- **A step keeps the tally.** -/
theorem Tally.step {cancelled : Bool} (ht : Tally p jobs b pool)
    (hs : pool.Step p cancelled beat pool') : Tally p jobs (b ++ [beat]) pool' := by
  cases hs with
  | @launch f g slots number job hf =>
    have hjob := ht.kept.job_eq hf
    obtain ⟨rest, hwaiting, hnumber, hg⟩ := Fetching.next?_eq_some hf
    have hstarted : g.started = f.started + 1 := by
      subst hg
      simp only [Fetching.started, List.length_append, List.length_singleton]
      omega
    have hroom := Fetching.length_held_of_next? hf
    refine ⟨?_, ?_, ?_, ?_, ht.fronted.launch hf, ?_, ?_, ?_, ?_⟩
    · simpa using ht.launched.launch hf
    · simpa using ht.kept.launch hf
    · rw [← ht.limit_eq, hg]
    · rw [hg, List.length_append]
      exact hroom
    · have hlt : f.started < jobs.length := hnumber ▸ (List.getElem?_eq_some_iff.1 hjob).1
      have htake : jobs.take (f.started + 1) = jobs.take f.started ++ [job] := by
        rw [List.take_add_one, ← hnumber, hjob]
        rfl
      rw [starts_append, ht.starts_eq, hstarted, htake, List.zipIdx_append, List.length_take,
        Nat.min_eq_left (Nat.le_of_lt hlt), hnumber]
      simp
    · intro n
      have hold := ht.hasEnded_iff n
      rw [hstarted, Fetching.unresolved_launch hf, hnumber]
      simp only [HasEnded, ends_append, ends_started, List.append_nil, List.mem_append,
        List.mem_singleton, not_or] at hold ⊢
      rw [hold]
      constructor
      · rintro ⟨hn, hmem⟩
        exact ⟨by omega, hmem, by omega⟩
      · rintro ⟨hn, hmem, hne⟩
        exact ⟨by omega, hmem⟩
    · simpa using ht.nodup
    · simpa using ht.results
  | @fetch f before after number th th' m hth =>
    have hunresolved : number ∈ Fetching.unresolved f.held := by
      rw [← ht.launched.numbers]
      simp
    refine ⟨?_, ?_, ht.limit_eq, ht.held_le, ht.fronted, ?_, ?_, ?_, ?_⟩
    · simpa using ht.launched.fetch hth
    · simpa using ht.kept
    · simpa using ht.starts_eq
    · simpa [HasEnded] using ht.hasEnded_iff
    · simpa using ht.nodup
    · intro x hx
      have hx' : x ∈ ends b := by simpa using hx
      have hne : Worker.job number ≠ .job x.1 := by
        rintro ⟨⟩
        exact ((ht.hasEnded_iff _).1 (hasEnded_of_mem hx')).2 hunresolved
      simpa using (ht.results x hx').append (hth.other hne).1
  | @land f before after number result =>
    have hunresolved : number ∈ Fetching.unresolved f.held := by
      rw [← ht.launched.numbers]
      simp
    have hopen : ¬ HasEnded b number := fun h => ((ht.hasEnded_iff _).1 h).2 hunresolved
    have hresult : JobResult p (moments b) jobs number result := by
      obtain ⟨job, hjob, hpath⟩ := ht.launched.threads (number, .running (.done result)) (by simp)
      exact ⟨job, hjob, hpath⟩
    refine ⟨?_, ?_, ht.limit_eq, ?_, ht.fronted.land number result, ?_, ?_, ?_, ?_⟩
    · simpa using ht.launched.land
    · refine (ht.kept.mono fun i r _ hr => ?_).land ?_
      · rw [ends_append]
        exact List.mem_append_left _ hr
      · simp
    · exact Nat.le_trans (Fetching.length_held_finish_le ..) ht.held_le
    · rw [Fetching.started_finish]
      simpa using ht.starts_eq
    · intro n
      have hold := ht.hasEnded_iff n
      have hlt := ht.launched.number_lt
      rw [Fetching.started_finish, Fetching.unresolved_land]
      simp only [HasEnded, ends_append, ends_ended, List.map_append, List.mem_append, List.map_cons,
        List.map_nil, List.mem_singleton, List.mem_filter, decide_eq_true_eq] at hold ⊢
      rw [hold]
      constructor
      · rintro (⟨hn, hmem⟩ | rfl)
        · exact ⟨hn, fun h => hmem h.1⟩
        · exact ⟨hlt, fun h => h.2 rfl⟩
      · rintro ⟨hn, hmem⟩
        by_cases heq : n = number
        · exact .inr heq
        · exact .inl ⟨hn, fun h => hmem ⟨h, heq⟩⟩
    · rw [ends_append, List.map_append, List.nodup_append]
      refine ⟨ht.nodup, List.nodup_singleton _, fun n hn m hm => ?_⟩
      obtain rfl : m = number := by simpa using hm
      rintro rfl
      exact hopen hn
    · intro x hx
      rw [ends_append] at hx
      rcases List.mem_append.1 hx with hx | hx
      · simpa using ht.results x hx
      · obtain rfl : x = (number, result) := by simpa using hx
        simpa using hresult

/-- A cancellation keeps the tally. -/
theorem Tally.cancel (ht : Tally p jobs b pool) : Tally p jobs (b ++ [.cancelled]) pool where
  launched := by simpa using ht.launched.append (u := [.cancelled]) fun _ => rfl
  kept := by simpa using ht.kept
  limit_eq := ht.limit_eq
  held_le := ht.held_le
  fronted := ht.fronted
  starts_eq := by simpa using ht.starts_eq
  hasEnded_iff := by simpa [HasEnded] using ht.hasEnded_iff
  nodup := by simpa using ht.nodup
  results := by
    intro x hx
    have hx' : x ∈ ends b := by simpa using hx
    simpa using (ht.results x hx').append (u := [.cancelled]) rfl

/-- **The buffer keeps track of everything that happens.** -/
theorem Pool.Reached.tally (reached : Pool.Reached p jobs b pool) : Tally p jobs b pool := by
  induction reached with
  | start => exact tally_create p jobs
  | step _ hs ih => exact ih.step hs
  | cancel _ _ ih => exact ih.cancel

/-! ## What is held -/

/-- The jobs that have been started are numbered in order. -/
theorem Tally.numbers_eq (ht : Tally p jobs b pool) :
    (starts b).map (·.2) = List.range' 0 pool.buffer.started := by
  rw [ht.starts_eq, List.zipIdx_map_snd, List.length_take, Nat.min_eq_left ht.kept.started_le]

theorem Tally.length_starts (ht : Tally p jobs b pool) : (starts b).length = pool.buffer.started := by
  have hlength := congrArg List.length ht.numbers_eq
  rwa [List.length_map, List.length_range'] at hlength

/-- A job whose result has been taken has ended. -/
theorem Tally.hasEnded_of_lt (ht : Tally p jobs b pool) {number : Nat}
    (h : number < pool.buffer.taken.length) : HasEnded b number :=
  hasEnded_of_mem (ht.kept.taken number _ (List.getElem?_eq_getElem h))

/-- The first job whose result has not been taken has not ended. -/
theorem Tally.not_hasEnded_first (ht : Tally p jobs b pool) (h : pool.buffer.held ≠ []) :
    ¬ HasEnded b pool.buffer.taken.length := by
  obtain ⟨first, others, hheld⟩ := List.exists_cons_of_ne_nil h
  have hnone : first.result = none := ht.fronted.first first (by simp [hheld])
  have hnumber : first.number = pool.buffer.taken.length := ht.kept.number_eq 0 first (by simp [hheld])
  have hopen : pool.buffer.taken.length ∈ Fetching.unresolved pool.buffer.held :=
    Fetching.mem_unresolved.2 ⟨first, by simp [hheld], hnone, hnumber⟩
  exact fun hended => ((ht.hasEnded_iff _).1 hended).2 hopen

/-- **The slots of the buffer are held by the jobs that are held back.** -/
theorem Tally.held_eq (ht : Tally p jobs b pool) :
    pool.buffer.held.map (·.number) = heldBack b := by
  have hslots : pool.buffer.held.map (·.number) =
      List.range' pool.buffer.taken.length pool.buffer.held.length := by
    refine List.ext_getElem (by simp) fun i hi hi' => ?_
    rw [List.length_map] at hi
    have hnumber := ht.kept.number_eq i _ (List.getElem?_eq_getElem hi)
    simpa using hnumber
  have htaken : (List.range' 0 pool.buffer.taken.length).filter
      (fun number => ∃ earlier ≤ number, ¬ HasEnded b earlier) = [] := by
    rw [List.filter_eq_nil_iff]
    intro number hnumber hheld
    obtain ⟨earlier, hle, hopen⟩ := of_decide_eq_true hheld
    have hlt : number < pool.buffer.taken.length := by simpa [List.mem_range'_1] using hnumber
    exact hopen (ht.hasEnded_of_lt (by omega))
  have hheld : (List.range' pool.buffer.taken.length pool.buffer.held.length).filter
      (fun number => ∃ earlier ≤ number, ¬ HasEnded b earlier) =
        List.range' pool.buffer.taken.length pool.buffer.held.length := by
    rw [List.filter_eq_self]
    intro number hnumber
    obtain ⟨hle, hlt⟩ := List.mem_range'_1.1 hnumber
    have hne : pool.buffer.held ≠ [] := List.ne_nil_of_length_pos (by omega)
    exact decide_eq_true ⟨_, hle, ht.not_hasEnded_first hne⟩
  rw [heldBack, ht.numbers_eq, Fetching.started, ← List.range'_append_1, List.filter_append,
    Nat.zero_add, htaken, hheld, List.nil_append, hslots]

theorem Tally.length_heldBack (ht : Tally p jobs b pool) :
    (heldBack b).length = pool.buffer.held.length := by
  rw [← ht.held_eq, List.length_map]

/-! ## Order -/

/-- What is known of everything that has happened. -/
structure Orderly (p : SyncPolicy) (jobs : List Job) (b : List Beat) : Prop where
  inFlight_le : (inFlight b).length ≤ (heldBack b).length
  heldBack_le : (heldBack b).length ≤ max 1 p.maxConcurrentFetches
  /-- The first jobs of the list have been started, in order, each of them once. -/
  starts_eq : starts b = (jobs.take (starts b).length).zipIdx
  /-- Whenever a job was started it was the next one of the list, and a slot was free. -/
  room : ∀ c job number d, b = c ++ .started job number :: d →
    (heldBack c).length < max 1 p.maxConcurrentFetches ∧ number = (starts c).length ∧
      jobs[number]? = some job
  nodup : ((ends b).map (·.1)).Nodup
  started : ∀ x ∈ ends b, x.1 < (starts b).length
  /-- A job ends with what its attempts have come to. -/
  results : ∀ x ∈ ends b, ∃ job, jobs[x.1]? = some job ∧ x.2.target = job.1 ∧
    (fetchOne p job).Ends (exchanges (.job x.1) (moments b)) x.2

/-- Every job has been started and has ended, and there is a result for each of them, in the order of the
list. -/
structure Gathered (jobs : List Job) (b : List Beat) (results : List Fetched) : Prop where
  starts_eq : starts b = jobs.zipIdx
  inFlight_eq : inFlight b = []
  targets_eq : results.map (·.target) = jobs.map (·.1)
  ended : ∀ i result, results[i]? = some result → (i, result) ∈ ends b

theorem Pool.Reached.orderly (reached : Pool.Reached p jobs b pool) : Orderly p jobs b := by
  have ht := reached.tally
  have hlimit : max p.maxConcurrentFetches 1 = max 1 p.maxConcurrentFetches := Nat.max_comm ..
  refine ⟨length_inFlight_le b, ?_, ?_, ?_, ht.nodup, ?_, ?_⟩
  · rw [ht.length_heldBack, ← hlimit, ← ht.limit_eq]
    exact ht.held_le
  · rw [ht.length_starts]
    exact ht.starts_eq
  · rintro c job number d rfl
    obtain ⟨pool', g, reached', hnext⟩ := reached.next?
    have ht' := reached'.tally
    refine ⟨?_, ?_, ht'.kept.job_eq hnext⟩
    · rw [ht'.length_heldBack, ← hlimit, ← ht'.limit_eq]
      exact Fetching.length_held_of_next? hnext
    · obtain ⟨_, -, hnumber, -⟩ := Fetching.next?_eq_some hnext
      rw [hnumber, ht'.length_starts]
  · intro x hx
    rw [ht.length_starts]
    exact ((ht.hasEnded_iff _).1 (hasEnded_of_mem hx)).1
  · intro x hx
    obtain ⟨job, hjob, hends⟩ := ht.results x hx
    exact ⟨job, hjob, (ends_fetchOne_ok_iff hends .null).1, hends⟩

theorem Pool.Reached.gathered (reached : Pool.Reached p jobs b pool)
    (hover : pool.buffer.isOver = true) : Gathered jobs b pool.buffer.taken := by
  have ht := reached.tally
  obtain ⟨hlength, hended⟩ := ht.kept.results hover
  obtain ⟨-, hheld⟩ : pool.buffer.waiting = [] ∧ pool.buffer.held = [] := by
    simpa [Fetching.isOver] using hover
  have hstarted : pool.buffer.started = jobs.length := by
    rw [Fetching.started, hheld, hlength]
    rfl
  refine ⟨?_, ?_, ?_, hended⟩
  · rw [ht.starts_eq, hstarted, List.take_length]
  · have hle := length_inFlight_le b
    rw [ht.length_heldBack, hheld] at hle
    exact List.eq_nil_of_length_eq_zero (Nat.le_zero.1 hle)
  · refine List.ext_getElem? fun i => ?_
    rw [List.getElem?_map, List.getElem?_map]
    by_cases hi : i < jobs.length
    · have hresult := List.getElem?_eq_getElem (l := pool.buffer.taken) (i := i) (by omega)
      obtain ⟨job, hjob, htarget, -⟩ := reached.orderly.results _ (hended i _ hresult)
      dsimp only at hjob htarget
      rw [hresult, hjob]
      exact congrArg some htarget
    · rw [List.getElem?_eq_none (by omega), List.getElem?_eq_none (by omega)]
      rfl

/-! ## Ends -/

/-- How much can happen at most before all jobs have ended. -/
inductive Pool.Lasts (p : SyncPolicy) : Nat → Pool → Prop
  | intro {n : Nat} {f : Fetching} {slots : List (Nat × Thread Fetched)}
    (within : SlotsWithin (Thread.Within fun _ => True) n slots) :
    Lasts p (f.waiting.length * fetchSpan p + n) ⟨f, slots⟩

theorem Pool.Lasts.step {n : Nat} {cancelled : Bool} (hl : pool.Lasts p n)
    (hs : pool.Step p cancelled beat pool') : ∃ k < n, pool'.Lasts p k := by
  cases hs with
  | launch hf =>
    cases hl with
    | intro within =>
      obtain ⟨-, hlength⟩ := Fetching.room_of_next? hf (Nat.le_refl _)
      refine ⟨_, ?_, .intro (within.append (.running within_fetchOne))⟩
      rw [hlength, fetchSpan, Nat.add_mul]
      omega
  | fetch hth =>
    cases hl with
    | intro within =>
      obtain ⟨l, m, rfl, hslot, -, hreplace⟩ := within.split
      obtain ⟨k, hk, hw⟩ := hslot.step hth
      exact ⟨_, by omega, .intro (hreplace k _ hw)⟩
  | land result =>
    cases hl with
    | intro within =>
      obtain ⟨l, m, rfl, -, hothers, -⟩ := within.split
      refine ⟨_, ?_, .intro hothers⟩
      rw [Fetching.waiting_finish]
      omega

/-- A cancellation happens once, and everything else leaves less to happen. -/
theorem Pool.Reached.lasts (reached : Pool.Reached p jobs b pool) :
    ∃ n, pool.Lasts p n ∧
      b.length + n ≤ jobs.length * fetchSpan p + (wasCancelled (moments b)).toNat := by
  induction reached with
  | start => exact ⟨_, .intro .nil, by simp [Fetching.create]⟩
  | @step b pool pool' beat _ hs ih =>
    obtain ⟨n, hl, hle⟩ := ih
    obtain ⟨k, hk, hl'⟩ := hl.step hs
    refine ⟨k, hl', ?_⟩
    have hcancelled : (wasCancelled (moments b)).toNat ≤
        (wasCancelled (moments (b ++ [beat]))).toNat := by
      rw [moments_append, wasCancelled_append]
      cases wasCancelled (moments b) <;> simp
    rw [List.length_append, List.length_singleton]
    omega
  | @cancel b pool _ hc ih =>
    obtain ⟨n, hl, hle⟩ := ih
    refine ⟨n, hl, ?_⟩
    have hcancelled : wasCancelled (moments (b ++ [.cancelled])) = true := by
      simp [wasCancelled]
    rw [hc] at hle
    rw [hcancelled, List.length_append, List.length_singleton]
    simp only [Bool.toNat_false, Bool.toNat_true] at hle ⊢
    omega

theorem Pool.Reached.length_le (reached : Pool.Reached p jobs b pool) :
    b.length ≤ jobs.length * fetchSpan p + 1 := by
  obtain ⟨n, -, hle⟩ := reached.lasts
  have hone : (wasCancelled (moments b)).toNat ≤ 1 := Bool.toNat_le _
  omega

/-- Something that happens next is no cancellation, and if a request is answered it is so in a given
way. -/
inductive Beat.GoesOn (answer : (r : Request) → r.Answer) : Beat → Prop
  | started (job : Job) (number : Nat) : GoesOn answer (.started job number)
  | asked (w : Worker) (r : Request) : GoesOn answer (.went (.asked w r))
  | answered (w : Worker) (r : Request) : GoesOn answer (.went (.answered w ⟨r, answer r⟩))
  | ended (number : Nat) (result : Fetched) : GoesOn answer (.ended number result)

/-- **Jobs that are not over can go on**, however their requests are answered. -/
theorem Pool.Reached.goesOn (reached : Pool.Reached p jobs b pool)
    (hover : pool.buffer.isOver = false) {answer : (r : Request) → r.Answer}
    (hadmits : ∀ r, Request.Admits (wasCancelled (moments b)) r (answer r)) :
    ∃ beat pool', pool.Step p (wasCancelled (moments b)) beat pool' ∧ beat.GoesOn answer := by
  have ht := reached.tally
  obtain ⟨f, slots⟩ := pool
  cases slots with
  | cons slot others =>
    obtain ⟨number, th⟩ := slot
    rw [show (number, th) :: others = [] ++ (number, th) :: others from rfl]
    obtain ⟨result, rfl⟩ | ⟨m, th', hth, hm⟩ := th.done_or_step (.job number) hadmits
    · exact ⟨_, _, .land result, .ended _ _⟩
    · refine ⟨_, _, .fetch hth, ?_⟩
      cases hth with
      | ask r next => exact .asked _ r
      | answer r next a ha =>
        cases hm
        exact .answered _ r
  | nil =>
    have hheld : f.held = [] := by
      by_contra hne
      refine ht.not_hasEnded_first hne ((ht.hasEnded_iff _).2 ⟨?_, ?_⟩)
      · have hpos : 0 < f.held.length := List.length_pos_of_ne_nil hne
        show f.taken.length < f.taken.length + f.held.length
        omega
      · rw [← ht.launched.numbers]
        exact List.not_mem_nil
    obtain ⟨number, job, g, hnext⟩ := Fetching.exists_next hheld ht.fronted.limit_pos hover
    exact ⟨_, _, .launch hnext, .started _ _⟩

/-! ## Epochs -/

/-- **The fetches of an epoch** are those of the jobs that it has selected, from the moment of the
selection on. -/
theorem Run.reached {trigger : Trigger} {t : List Moment} {epoch : Epoch} {f : Fetching}
    {slots : List (Nat × Thread Fetched)} (run : Run p trigger t (.fetching epoch f slots)) :
    ∃ jobs b, selections t = [jobs] ∧ Pool.Reached p jobs b ⟨f, slots⟩ ∧
      wasCancelled (moments b) = wasCancelled t ∧
      ∀ n, exchanges (.job n) (moments b) = exchanges (.job n) t := by
  generalize hs : Situation.fetching epoch f slots = s at run
  induction run generalizing epoch f slots with
  | start => cases hs
  | startCancelled => cases hs
  | @step t _ _ _ run step ih =>
    cases step with
    | check | stop | collect | write => cases hs
    | select epoch jobs hf =>
      cases hs
      cases run.accounts with
      | checking _ untouched unselected =>
        have hselected : selections (t ++ [.selected jobs f.phase]) = [jobs] := by simp [unselected]
        have hcancelled : wasCancelled (t ++ [.selected jobs f.phase]) = wasCancelled t := by
          simp [wasCancelled]
        have huntouched : ∀ n, exchanges (.job n) (t ++ [.selected jobs f.phase]) = [] := by
          simp [untouched]
        cases hc : wasCancelled t with
        | false =>
          refine ⟨jobs, [], hselected, hf ▸ .start, ?_, fun n => (huntouched n).symm⟩
          exact (hcancelled.trans hc).symm
        | true =>
          refine ⟨jobs, [.cancelled], hselected, hf ▸ .cancel .start rfl, ?_, fun n => ?_⟩
          · exact (hcancelled.trans hc).symm
          · exact (huntouched n).symm
    | launch hf =>
      cases hs
      obtain ⟨jobs, b, hselected, reached, hcancelled, hexchanges⟩ := ih rfl
      refine ⟨jobs, _, ?_, reached.step (.launch hf), ?_, ?_⟩
      · simpa using hselected
      · simpa using hcancelled
      · simpa using hexchanges
    | fetch hth =>
      cases hs
      obtain ⟨jobs, b, hselected, reached, hcancelled, hexchanges⟩ := ih rfl
      refine ⟨jobs, _, ?_, reached.step (.fetch (hcancelled ▸ hth)), ?_, ?_⟩
      · simp [hselected, hth.selections_eq]
      · simp [hcancelled]
      · simp [hexchanges]
    | land result =>
      cases hs
      obtain ⟨jobs, b, hselected, reached, hcancelled, hexchanges⟩ := ih rfl
      refine ⟨jobs, _, ?_, reached.step (.land result), ?_, ?_⟩
      · simpa using hselected
      · simpa [wasCancelled] using hcancelled
      · simpa using hexchanges
  | cancel _ _ hc ih =>
    obtain ⟨jobs, b, hselected, reached, hcancelled, hexchanges⟩ := ih hs
    refine ⟨jobs, _, ?_, reached.cancel (hcancelled.trans hc), ?_, ?_⟩
    · simpa using hselected
    · simp [hcancelled]
    · simpa using hexchanges

end

/-- **Fetches are bounded, in order, and all of them end.** Whatever is to be fetched, however the
attempts are answered, and whenever the epoch is cancelled: at any time no more jobs are under way than
the policy allows, and at least one may be; a job that pauses is under way, and one that has ended
keeps its slot as long as an earlier one has not. Jobs are started in order, each of them once, and only
while a slot is free. There is a limit to what can happen, and something can until all jobs have ended;
then there is one result for each of them, in order. The fetches of every epoch are of this kind. -/
theorem fetching_bounded (p : SyncPolicy) :
    (∀ jobs b pool, Pool.Reached p jobs b pool →
      Orderly p jobs b ∧ pool.buffer.held.map (·.number) = heldBack b ∧
      b.length ≤ jobs.length * fetchSpan p + 1 ∧
      (pool.buffer.isOver = true → Gathered jobs b pool.buffer.taken) ∧
      (pool.buffer.isOver = false → ∀ answer : (r : Request) → r.Answer,
        (∀ r, Request.Admits (wasCancelled (moments b)) r (answer r)) →
          ∃ beat pool', beat.GoesOn answer ∧ Pool.Reached p jobs (b ++ [beat]) pool')) ∧
    ∀ trigger t epoch f slots, Run p trigger t (.fetching epoch f slots) →
      ∃ jobs b, selections t = [jobs] ∧ Pool.Reached p jobs b ⟨f, slots⟩ ∧
        wasCancelled (moments b) = wasCancelled t ∧
        ∀ n, exchanges (.job n) (moments b) = exchanges (.job n) t := by
  constructor
  · intro jobs b pool reached
    refine ⟨reached.orderly, reached.tally.held_eq, reached.length_le, reached.gathered, ?_⟩
    intro hover answer hadmits
    obtain ⟨beat, pool', hs, hbeat⟩ := reached.goesOn hover hadmits
    exact ⟨beat, pool', hbeat, reached.step hs⟩
  · intro trigger t epoch f slots run
    exact run.reached

/-- Of three jobs two are started, and the second one ends first. It keeps its slot, so the third one
cannot be started. -/
theorem fetching_bounded_behind :
    let p := { SyncPolicy.fullOnly with maxConcurrentFetches := 2 }
    let jobs : List Job := ["1", "2", "3"].map fun version => (.localization, ⟨version⟩)
    (∃ b pool, Pool.Reached p jobs b pool ∧ inFlight b = [0] ∧ heldBack b = [0, 1] ∧
      pool.buffer.next? = none ∧ Orderly p jobs b) ∧
    ∃ t epoch f slots jobs b, Run p .manual t (.fetching epoch f slots) ∧
      selections t = [jobs] ∧ Pool.Reached p jobs b ⟨f, slots⟩ := by
  intro p jobs
  obtain ⟨hpool, hrun⟩ := fetching_bounded p
  constructor
  · have first : Pool.Reached p jobs [.started (.localization, ⟨"1"⟩) 0] _ := .step .start (.launch rfl)
    have second : Pool.Reached p jobs _ _ := first.step (.launch rfl)
    have asked : Pool.Reached p jobs _ _ :=
      second.step (@Pool.Step.fetch _ _ _ [_] [] _ _ _ _ (.ask _ _))
    have answered : Pool.Reached p jobs _ _ :=
      asked.step (@Pool.Step.fetch _ _ _ [_] [] _ _ _ _
        (.answer (.attempt (.fetch .localization ⟨"2"⟩ p.unzip) p.fetchTimeout) _
          (Ending.answered (.ok Json.null)) trivial))
    have ended : Pool.Reached p jobs _ _ :=
      answered.step (@Pool.Step.land _ _ _ [_] [] _ ⟨.localization, 1, .ok .null⟩)
    exact ⟨_, _, ended, by decide, by decide, rfl, (hpool _ _ _ ended).1⟩
  · let played := (Conduct.newGameData fun _ => false).play p .manual false
    have run : Run p .manual played.history (.ended played.result) := Conduct.play_run false
    obtain ⟨shown, hmem⟩ : ∃ shown, Moment.progressed shown ∈ played.history :=
      ⟨_, List.mem_of_getElem? (i := 13) rfl⟩
    obtain ⟨before, after, heq⟩ := List.append_of_mem hmem
    rw [heq] at run
    obtain ⟨_, fetching, ⟨hcancelled, -⟩ | ⟨_, hs⟩⟩ := run.split
    · cases hcancelled
    · cases hs with
      | check hth | fetch hth | write hth => cases hth
      | land =>
        obtain ⟨jobs, b, hselected, reached, -⟩ := hrun _ _ _ _ _ fetching
        exact ⟨_, _, _, _, jobs, b, fetching, hselected, reached⟩

end ContentSync.Engine
