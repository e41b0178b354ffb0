import ContentSync.Proofs.Engine.Account

/-!
# An epoch can always go on

* `Fetching.Fronted` — the first job in the buffer has not ended, or it would have been taken;
* `Run.exists_next` — when nothing is under way, another job can be started;
* `Run.over_or_step` — an epoch that is not over can go on, however its requests are answered.
-/

set_option autoImplicit false

namespace ContentSync

namespace Engine

open Program

variable {p : SyncPolicy} {trigger : Trigger} {t : List Moment} {s : Situation} {epoch : Epoch}

/-- A buffer in which a job can be started when there is no other job under way: it takes at least
one job at a time, and its first one has not ended. -/
structure Fetching.Fronted (f : Fetching) : Prop where
  limit_pos : 1 ≤ f.limit
  first : ∀ slot ∈ f.held.head?, slot.result = none

theorem Fetching.fronted_create (limit : Nat) (jobs : List Job) :
    (Fetching.create limit jobs).Fronted :=
  ⟨Nat.le_max_right .., nofun⟩

theorem Fetching.Fronted.launch {f g : Fetching} {number : Nat} {job : Job} (hf : f.Fronted)
    (hn : f.next? = some (number, job, g)) : g.Fronted := by
  obtain ⟨rest, -, rfl, rfl⟩ := next?_eq_some hn
  refine ⟨hf.limit_pos, fun slot hslot => ?_⟩
  cases hheld : f.held with
  | nil =>
    obtain rfl : ⟨f.started, none⟩ = slot := by simpa [hheld] using hslot
    rfl
  | cons first others => exact hf.first slot (by simpa [hheld] using hslot)

/-- What can be taken has been taken. -/
theorem Fetching.first_endedFront (held : List Slot) :
    ∀ slot ∈ (endedFront held).2.head?, slot.result = none := by
  induction held with
  | nil => nofun
  | cons s held ih =>
    unfold endedFront
    split
    · rename_i hs
      intro slot hslot
      obtain rfl : s = slot := by simpa using hslot
      exact hs
    · exact ih

theorem Fetching.Fronted.land {f : Fetching} (hf : f.Fronted) (number : Nat) (result : Fetched) :
    (f.finish number result).Fronted :=
  ⟨hf.limit_pos, first_endedFront _⟩

theorem Run.fronted {f : Fetching} {slots : List (Nat × Thread Fetched)}
    (run : Run p trigger t (.fetching epoch f slots)) : f.Fronted := by
  generalize hs : Situation.fetching epoch f slots = s at run
  induction run generalizing epoch f slots with
  | start => cases hs
  | startCancelled => cases hs
  | step _ step ih =>
    cases step with
    | check | stop | collect | write => cases hs
    | select _ _ hf =>
      cases hs
      exact hf ▸ Fetching.fronted_create ..
    | launch hf =>
      cases hs
      exact (ih rfl).launch hf
    | fetch =>
      cases hs
      exact ih rfl
    | land =>
      cases hs
      exact (ih rfl).land ..
  | cancel _ _ _ ih => exact ih hs

/-- When nothing is under way, every job that was started has been taken. -/
theorem Run.held_eq_nil {f : Fetching} (run : Run p trigger t (.fetching epoch f [])) :
    f.held = [] := by
  cases run.accounts with
  | fetching _ _ _ launched =>
    have hnone := launched.numbers
    cases hheld : f.held with
    | nil => rfl
    | cons first others =>
      have hfirst := run.fronted.first first (by simp [hheld])
      have hmem : first.number ∈ Fetching.unresolved f.held :=
        Fetching.mem_unresolved.2 ⟨first, by simp [hheld], hfirst, rfl⟩
      rw [← hnone] at hmem
      cases hmem

/-- When all jobs that were started have been taken, another one can be started. -/
theorem Fetching.exists_next {f : Fetching} (hheld : f.held = []) (limit_pos : 1 ≤ f.limit)
    (hover : f.isOver = false) : ∃ number job g, f.next? = some (number, job, g) := by
  cases hwaiting : f.waiting with
  | nil => simp [Fetching.isOver, hwaiting, hheld] at hover
  | cons job rest =>
    refine ⟨f.started, job, { f with waiting := rest, held := f.held ++ [⟨f.started, none⟩] }, ?_⟩
    simp [Fetching.next?, hwaiting, hheld, Nat.pos_iff_ne_zero.1 limit_pos]

/-- When nothing is under way, another job can be started, unless all of them are over. -/
theorem Run.exists_next {f : Fetching} (run : Run p trigger t (.fetching epoch f []))
    (hover : f.isOver = false) : ∃ number job g, f.next? = some (number, job, g) :=
  Fetching.exists_next run.held_eq_nil run.fronted.limit_pos hover

/-- A step that is no cancellation, and in which requests are answered in a given way. -/
inductive GoesOn (answer : (r : Request) → r.Answer) : Option Moment → Prop
  | silent : GoesOn answer none
  | asked (w : Worker) (r : Request) : GoesOn answer (some (.asked w r))
  | answered (w : Worker) (r : Request) : GoesOn answer (some (.answered w ⟨r, answer r⟩))
  | selected (jobs : List Job) (shown : Phase) : GoesOn answer (some (.selected jobs shown))
  | progressed (shown : Phase) : GoesOn answer (some (.progressed shown))

/-- A thread that is not done can go on, however its requests are answered. -/
theorem Thread.done_or_step {α : Type} (w : Worker) {cancelled : Bool}
    {answer : (r : Request) → r.Answer} (hadmits : ∀ r, Request.Admits cancelled r (answer r))
    (th : Thread α) :
    (∃ a, th = .running (.done a)) ∨
      ∃ m th', th.Step w cancelled m th' ∧ GoesOn answer (some m) := by
  cases th with
  | running q =>
    cases q with
    | done a => exact .inl ⟨a, rfl⟩
    | ask r next => exact .inr ⟨_, _, .ask r next, .asked w r⟩
  | waiting r next => exact .inr ⟨_, _, .answer r next (answer r) (hadmits r), .answered w r⟩

/-- **An epoch that is not over can go on**, however its requests are answered. -/
theorem Run.over_or_step (answer : (r : Request) → r.Answer) (run : Run p trigger t s)
    (hadmits : ∀ r, Request.Admits (wasCancelled t) r (answer r)) :
    (∃ epoch, s = .ended epoch) ∨
      ∃ m s', s.Step p (wasCancelled t) m s' ∧ GoesOn answer m := by
  cases s with
  | checking th =>
    right
    obtain ⟨_ | _, rfl⟩ | ⟨m, th', hth, hm⟩ := th.done_or_step .epoch hadmits
    · exact ⟨_, _, .stop _, .silent⟩
    · exact ⟨_, _, .select _ _ rfl, .selected ..⟩
    · exact ⟨_, _, .check hth, hm⟩
  | fetching epoch f slots =>
    right
    cases slots with
    | cons slot others =>
      obtain ⟨number, th⟩ := slot
      rw [show (number, th) :: others = [] ++ (number, th) :: others from rfl]
      obtain ⟨result, rfl⟩ | ⟨m, th', hth, hm⟩ := th.done_or_step (.job number) hadmits
      · exact ⟨_, _, .land result, .progressed _⟩
      · exact ⟨_, _, .fetch hth, hm⟩
    | nil =>
      cases hover : f.isOver with
      | true => exact ⟨_, _, .collect hover, .silent⟩
      | false =>
        obtain ⟨number, job, g, hnext⟩ := run.exists_next hover
        exact ⟨_, _, .launch hnext, .silent⟩
  | writing th =>
    obtain ⟨epoch, rfl⟩ | ⟨m, th', hth, hm⟩ := th.done_or_step .epoch hadmits
    · exact .inl ⟨epoch, rfl⟩
    · exact .inr ⟨_, _, .write hth, hm⟩

end Engine

end ContentSync
