import ContentSync.Proofs.Engine.RetryLoop
import ContentSync.Proofs.Engine.Solo
import ContentSync.Proofs.Engine.Upshot

/-!
# The loop of attempts on the clock

A call with retries lives among others, which do what they like while it waits; and it may be cancelled
at some time. Each of its attempts ends when it is answered or when its limit passes, each pause when
its length has passed, and the cancellation cuts short whatever would have ended later.

* `Begins`, `Lives` — what becomes of a program on the clock;
* `Uncut` — how long an attempt or a pause takes that is not cut short;
* `Timeline` — exchanges one after another, each with its time;
* `Progress.Reached` / `Lives.reached` — what a program that can be cancelled whenever it waits has
  exchanged is a timeline;
* `Lives.exists_finished` — such a program comes to its end;
* `Interruptible` / `interruptible_of_path`, `Interruptible.cases_of_lives` — a cancellation ends the loop
  while it waits;
* `retry_loop` — the loop of attempts, its course, its times and its account.
-/

set_option autoImplicit false

namespace ContentSync.Engine

open Program

variable {σ α : Type} {k : Collaborators σ} {C : Option Nat} {cancelled : Bool} {e e' : Env σ}

/-! ## Lives -/

/-- Whoever asks is told of a cancellation from the time on at which it comes, if it comes at all. In
its very millisecond it may be heard or not. -/
def Informed (C : Option Nat) (now : Nat) (cancelled : Bool) : Prop :=
  if cancelled then ∃ time ∈ C, time ≤ now else ∀ time ∈ C, now ≤ time

/-- The time to which something waits that is waited for now. What only gives way waits for nobody's
time to pass. -/
def Hold.deadline? (now : Nat) : Hold → Option Nat
  | .opening _ => some now
  | .underWay _ due _ => due
  | .pausing due => some due
  | .computing => none

/-- While a program waits others do what they like, but the clock stops where the program goes on. -/
structure Meanwhile (C : Option Nat) (w : Wait α) (e e' : Env σ) : Prop where
  now_le : e.now ≤ e'.now
  le_deadline : ∀ due ∈ w.hold.deadline? e.now, e'.now ≤ due
  le_cancellation : w.request.isCancellable = true → ∀ time ∈ C, e'.now ≤ time

/-- Where a program stands on the clock that is begun and may be cancelled at a time. -/
def Begins (k : Collaborators σ) (C : Option Nat) (e : Env σ) (q : Program α) (e' : Env σ)
    (progress : Progress α) : Prop :=
  ∃ cancelled, Informed C e.now cancelled ∧ advance k cancelled e q = (e', progress)

/-- What becomes of a program on the clock from where it stands on. -/
inductive Lives (k : Collaborators σ) (C : Option Nat) (e : Env σ) (progress : Progress α) :
    Env σ → Progress α → Prop
  | here : Lives k C e progress e progress
  | goesOn {cancelled : Bool} {e₁ e₂ e' : Env σ} {w : Wait α} {progress' : Progress α}
    (lives : Lives k C e progress e₁ (.waiting w)) (meanwhile : Meanwhile C w e₁ e₂)
    (informed : Informed C e₂.now cancelled) (resume_eq : w.resume k cancelled e₂ = (e', progress')) :
    Lives k C e progress e' progress'

/-! ## Times -/

/-- A call that starts at a time takes a course. -/
def Starts (k : Collaborators σ) (began : Nat) (c : Call) (course : Course) : Prop :=
  ∃ e : Env σ, e.now = began ∧ (e.start k c).1 = course

/-- A call with a course that is answered at a time has a result. -/
def Answers (k : Collaborators σ) (ended : Nat) (c : Call) (course : Course)
    (result : Except Failure c.Answer) : Prop :=
  ∃ e : Env σ, e.now = ended ∧ (e.answer k c course).2 = result

/-- When an exchange ends that began at a time and is not cut short. An answer is in time up to the
very end of the limit. -/
inductive Uncut (k : Collaborators σ) (began : Nat) : Nat → Exchange → Prop
  | answered {c : Call} {limit : Duration} {course : Course} {delay : Nat}
    {result : Except Failure c.Answer} (starts : Starts k began c course)
    (delay_eq : course.delay = some delay) (delay_le : delay ≤ limit.milliseconds)
    (answers : Answers k (began + delay) c course result) :
    Uncut k began (began + delay) ⟨.attempt c limit, .answered result⟩
  | overdue {c : Call} {limit : Duration} {course : Course} (starts : Starts k began c course)
    (lt_delay : ∀ delay, course.delay = some delay → limit.milliseconds < delay) :
    Uncut k began (began + limit.milliseconds) ⟨.attempt c limit, .overdue⟩
  /-- A call that gives way and has no time at all never starts. -/
  | unstarted {c : Call} {limit : Duration} (givesWay : k.givesWay c = true)
    (limit_eq : limit.milliseconds = 0) : Uncut k began began ⟨.attempt c limit, .overdue⟩
  | passed {length : Duration} :
    Uncut k began (began + length.milliseconds) ⟨.pause length, false⟩

/-- An exchange and its time. -/
structure Stamp where
  exchange : Exchange
  began : Nat
  ended : Nat

/-- An exchange takes its time, and no longer than to the cancellation. -/
inductive Timely (k : Collaborators σ) (C : Option Nat) : Stamp → Prop
  | uncut {x : Exchange} {began ended : Nat} (uncut : Uncut k began ended x)
    (in_time : ∀ time ∈ C, ended ≤ time) : Timely k C ⟨x, began, ended⟩
  /-- The cancellation was there already. -/
  | refused {x : Exchange} {began time : Nat} (mem : time ∈ C) (time_le : time ≤ began)
    (told : x.showsCancellation = true) : Timely k C ⟨x, began, began⟩
  /-- The cancellation comes before the end. -/
  | cut {x : Exchange} {began time due : Nat} {a : x.request.Answer} (mem : time ∈ C)
    (began_le : began ≤ time) (would_end : Uncut k began due ⟨x.request, a⟩) (time_le : time ≤ due)
    (told : x.showsCancellation = true) : Timely k C ⟨x, began, time⟩

/-- Exchanges one after another, from a time to another. -/
inductive Timeline (k : Collaborators σ) (C : Option Nat) (start : Nat) : List Stamp → Nat → Prop
  | start : Timeline k C start [] start
  | snoc {stamps : List Stamp} {s : Stamp} (before : Timeline k C start stamps s.began)
    (timely : Timely k C s) : Timeline k C start (stamps ++ [s]) s.ended

/-- What is exchanged on a timeline. -/
def exchanged (stamps : List Stamp) : List Exchange := stamps.map (·.exchange)

theorem Uncut.began_le {began ended : Nat} {x : Exchange} (hx : Uncut k began ended x) :
    began ≤ ended := by
  cases hx <;> omega

/-- Only a cancellation cuts an exchange short. -/
theorem Uncut.showsCancellation_eq {began ended : Nat} {x : Exchange} (hx : Uncut k began ended x) :
    x.showsCancellation = false := by
  cases hx <;> rfl

theorem Timely.began_le {s : Stamp} (hs : Timely k C s) : s.began ≤ s.ended := by
  cases hs with
  | uncut uncut => exact uncut.began_le
  | refused => exact Nat.le_refl _
  | cut _ began_le => exact began_le

/-- **An exchange that shows the cancellation ends when this has come.** -/
theorem Timely.exists_time {s : Stamp} (hs : Timely k C s)
    (told : s.exchange.showsCancellation = true) : ∃ time ∈ C, time ≤ s.ended := by
  cases hs with
  | uncut uncut => rw [uncut.showsCancellation_eq] at told; cases told
  | refused mem time_le => exact ⟨_, mem, time_le⟩
  | cut mem => exact ⟨_, mem, Nat.le_refl _⟩

/-- Nothing on a timeline ends after it. -/
theorem Timeline.ended_le {start now : Nat} {stamps : List Stamp}
    (ht : Timeline k C start stamps now) {s : Stamp} (hs : s ∈ stamps) : s.ended ≤ now := by
  induction ht with
  | start => cases hs
  | snoc before timely ih =>
    rcases List.mem_append.1 hs with hs | hs
    · exact Nat.le_trans (ih hs) timely.began_le
    · obtain rfl := List.mem_singleton.1 hs
      exact Nat.le_refl _

theorem Timeline.timely {start now : Nat} {stamps : List Stamp}
    (ht : Timeline k C start stamps now) {s : Stamp} (hs : s ∈ stamps) : Timely k C s := by
  induction ht with
  | start => cases hs
  | snoc before timely ih =>
    rcases List.mem_append.1 hs with hs | hs
    · exact ih hs
    · obtain rfl := List.mem_singleton.1 hs
      exact timely

/-- **Before the cancellation nothing is cut short.** -/
theorem Timeline.showsCancellation_eq {start now : Nat} {stamps : List Stamp}
    (ht : Timeline k C start stamps now) (hbefore : ∀ time ∈ C, now < time) {x : Exchange}
    (hx : x ∈ exchanged stamps) : x.showsCancellation = false := by
  obtain ⟨s, hs, rfl⟩ := List.mem_map.1 hx
  by_contra htold
  obtain ⟨time, mem, hle⟩ := (ht.timely hs).exists_time (by simpa using htold)
  have hlt := hbefore time mem
  have hended := ht.ended_le hs
  omega

/-! ## Waiting -/

/-- Why a request is waited for that was made at a time, and until when. -/
inductive Awaited (k : Collaborators σ) (began : Nat) : Request → Hold → Nat → Prop
  | opening (round : Nat) {c : Call} {limit : Duration} :
    Awaited k began (.attempt c limit) (.opening round) began
  | underWay {c : Call} {limit : Duration} {course : Course} (starts : Starts k began c course) :
    Awaited k began (.attempt c limit)
      (.underWay course (some (began + (course.within limit.milliseconds).1))
        (course.within limit.milliseconds).2)
      (began + (course.within limit.milliseconds).1)
  | pausing {length : Duration} :
    Awaited k began (.pause length) (.pausing (began + length.milliseconds))
      (began + length.milliseconds)

theorem Awaited.isCancellable {began due : Nat} {r : Request} {h : Hold}
    (hp : Awaited k began r h due) : r.isCancellable = true := by
  cases hp <;> rfl

theorem Awaited.deadline?_eq {began due : Nat} {r : Request} {h : Hold}
    (hp : Awaited k began r h due) {now : Nat} (hbegan : began ≤ now) (hnow : now ≤ due) :
    h.deadline? now = some due := by
  cases hp with
  | opening => exact congrArg some (by omega)
  | underWay | pausing => rfl

/-- What comes of a request that was made at a time: it is answered after its time, or its end has not
come yet, and neither has the cancellation. -/
inductive Reply.Goes (k : Collaborators σ) (C : Option Nat) (r : Request) (began now : Nat) :
    Reply r.Answer → Prop
  | answer {a : r.Answer} (timely : Timely k C ⟨⟨r, a⟩, began, now⟩) : Goes k C r began now (.answer a)
  | hold {h : Hold} {due : Nat} (pending : Awaited k began r h due) (began_le : began ≤ now)
    (now_le : now ≤ due) (in_time : ∀ time ∈ C, now ≤ time) : Goes k C r began now (.hold h)

namespace Env

/-- **A call that is concluded when it is due has taken its time.** -/
theorem uncut_of_conclude {began : Nat} {c : Call} {limit : Duration} {course : Course}
    {result : Option (Except Failure c.Answer)} (starts : Starts k began c course)
    (hnow : e.now = began + (course.within limit.milliseconds).1)
    (heq : e.conclude k c course (course.within limit.milliseconds).2 = (e', result)) :
    Uncut k began e.now ⟨.attempt c limit, Ending.ofResult? result⟩ := by
  obtain ⟨delay, hdelay, hle, hwithin⟩ | ⟨hlt, hwithin⟩ := course.within_cases limit.milliseconds
  · rw [hwithin] at hnow heq
    simp only [conclude, Bool.false_eq_true, if_false, Prod.mk.injEq] at heq
    obtain ⟨-, rfl⟩ := heq
    rw [hnow]
    exact .answered starts hdelay hle ⟨e, hnow, rfl⟩
  · rw [hwithin] at hnow heq
    cases heq
    rw [hnow]
    exact .overdue starts hlt

theorem goes_of_openLimited {c : Call} {limit : Duration}
    {reply : Reply (Option (Except Failure c.Answer))} (in_time : ∀ time ∈ C, e.now ≤ time)
    (heq : e.openLimited k c limit.milliseconds = (e', reply)) :
    (reply.map Ending.ofResult?).Goes k C (.attempt c limit) e.now e.now := by
  have starts : Starts k e.now c (e.start k c).1 := ⟨e, rfl, rfl⟩
  unfold openLimited at heq
  dsimp only at heq
  split at heq
  · rename_i late hwithin
    cases heq
    have hnow : (e.start k c).2.now = e.now + ((e.start k c).1.within limit.milliseconds).1 := by
      rw [hwithin]
      rfl
    cases hconclude : (e.start k c).2.conclude k c (e.start k c).1 late with
    | mk e₁ result =>
      rw [show late = ((e.start k c).1.within limit.milliseconds).2 by rw [hwithin]] at hconclude
      have huncut := uncut_of_conclude starts hnow hconclude
      exact .answer (.uncut huncut in_time)
  · rename_i length late hwithin
    cases heq
    have hpending : Awaited k e.now (.attempt c limit) _ _ := .underWay starts
    rw [hwithin] at hpending
    exact .hold hpending (Nat.le_refl _) (Nat.le_add_right _ _) in_time

/-- **A request that can be cancelled** is answered at once if it takes no time or comes after the
cancellation. -/
theorem goes_of_respond {r : Request} {reply : Reply r.Answer} (hr : r.isCancellable = true)
    (informed : Informed C e.now cancelled) (heq : e.respond k cancelled r = (e', reply)) :
    reply.Goes k C r e.now e.now := by
  cases r with
  | publish | isCancelled | clock | announce | remember | wait | call | compute => cases hr
  | attempt c limit =>
    cases cancelled with
    | true =>
      cases heq
      obtain ⟨time, mem, hle⟩ := informed
      exact .answer (.refused mem hle rfl)
    | false =>
      cases hcall : e.callLimited k c limit.milliseconds with
      | mk e₁ reply₁ =>
        simp only [respond, hcall] at heq
        cases heq
        unfold callLimited at hcall
        split at hcall
        · rename_i givesWay
          split at hcall
          · rename_i hlimit
            cases hcall
            exact .answer (.uncut (.unstarted givesWay hlimit) informed)
          · cases hcall
            exact .hold (.opening _) (Nat.le_refl _) (Nat.le_refl _) informed
        · exact goes_of_openLimited informed hcall
  | pause length =>
    cases cancelled with
    | true =>
      cases heq
      obtain ⟨time, mem, hle⟩ := informed
      exact .answer (.refused mem hle rfl)
    | false =>
      simp only [respond, Bool.false_eq_true, if_false] at heq
      split at heq
      · rename_i hlength
        cases heq
        have hpassed : Uncut k e.now (e.now + length.milliseconds) ⟨.pause length, false⟩ := .passed
        rw [hlength] at hpassed
        exact .answer (.uncut hpassed informed)
      · cases heq
        exact .hold .pausing (Nat.le_refl _) (Nat.le_add_right _ _) informed

/-- What would have come of a request in the end. -/
theorem exists_uncut (e : Env σ) {began due : Nat} {r : Request} {h : Hold}
    (hp : Awaited k began r h due) (hopen : ∀ round, h ≠ .opening round) :
    ∃ a : r.Answer, Uncut k began due ⟨r, a⟩ := by
  cases hp with
  | opening round => exact absurd rfl (hopen round)
  | @underWay c limit course starts =>
    let later : Env σ := { e with now := began + (course.within limit.milliseconds).1 }
    have hlater : Uncut k began later.now ⟨.attempt c limit, _⟩ := uncut_of_conclude starts rfl rfl
    exact ⟨_, hlater⟩
  | pausing => exact ⟨false, .passed⟩

/-- **A request that is gone on with** is answered when its end has come or the cancellation. -/
theorem goes_of_resume {began due : Nat} {r : Request} {h : Hold} {reply : Reply r.Answer}
    (hp : Awaited k began r h due) (hbegan : began ≤ e.now) (hnow : e.now ≤ due)
    (hdue : cancelled = false → due ≤ e.now) (in_time : ∀ time ∈ C, e.now ≤ time)
    (informed : Informed C e.now cancelled) (heq : e.resume k cancelled r h = (e', reply)) :
    reply.Goes k C r began e.now := by
  cases cancelled with
  | true =>
    -- The clock has not passed the cancellation, so it is heard as soon as it comes.
    obtain ⟨time, mem, hle⟩ := informed
    obtain rfl : time = e.now := Nat.le_antisymm hle (in_time time mem)
    have hcut : ∀ a : r.Answer, Exchange.showsCancellation ⟨r, a⟩ = true →
        (∀ round, h ≠ .opening round) → (Reply.answer a).Goes k C r began e.now := by
      intro a told hopen
      obtain ⟨b, hb⟩ := exists_uncut e hp hopen
      exact .answer (.cut mem hbegan hb hnow told)
    cases hp with
    | opening =>
      cases heq
      obtain rfl : began = e.now := Nat.le_antisymm hbegan hnow
      exact .answer (.refused mem (Nat.le_refl _) rfl)
    | underWay =>
      cases heq
      exact hcut _ rfl nofun
    | pausing =>
      cases heq
      exact hcut _ rfl nofun
  | false =>
    have hended : e.now = due := Nat.le_antisymm hnow (hdue rfl)
    cases hp with
    | @opening _ c limit =>
      obtain rfl : began = e.now := hended.symm
      cases hopened : e.openLimited k c limit.milliseconds with
      | mk e₁ reply₁ =>
        simp only [resume, hopened] at heq
        cases heq
        exact goes_of_openLimited in_time hopened
    | @underWay c limit course starts =>
      cases hconclude : e.conclude k c course (course.within limit.milliseconds).2 with
      | mk e₁ result =>
        simp only [resume, hconclude] at heq
        cases heq
        exact .answer (.uncut (uncut_of_conclude starts hended hconclude) in_time)
    | pausing =>
      cases heq
      rw [hended] at in_time ⊢
      exact .answer (.uncut .passed in_time)

/-- **A request that is waited for is answered at once by a cancellation.** -/
theorem exists_cut_of_awaited {began due : Nat} {r : Request} {h : Hold}
    (hp : Awaited k began r h due) : ∃ a : r.Answer, Exchange.showsCancellation ⟨r, a⟩ = true ∧
      ∀ e : Env σ, ∃ e', (e' = e ∨ ∃ c ∈ r.call?, e' = e.giveUp k c) ∧
        e.resume k true r h = (e', .answer a) := by
  cases hp with
  | opening => exact ⟨.cancelled, rfl, fun e => ⟨e, .inl rfl, rfl⟩⟩
  | @underWay c => exact ⟨.cancelled, rfl, fun e => ⟨e.giveUp k c, .inr ⟨c, rfl, rfl⟩, rfl⟩⟩
  | pausing => exact ⟨true, rfl, fun e => ⟨e, .inl rfl, rfl⟩⟩

end Env

namespace Wait

variable {w : Wait α} {began due : Nat}

/-- A program can go on when its end has come, or once it has given way. -/
theorem isNow_of_awaited (hp : Awaited k began w.request w.hold due) (hdue : due ≤ e.now)
    (hround : w.hold.patience ≤ e.round) : (w.prospect cancelled e).isNow = true := by
  obtain ⟨sequence, r, h, next⟩ := w
  unfold Wait.prospect
  split
  · rfl
  · cases hp with
    | opening round =>
      dsimp only
      rw [if_pos (show round < e.round from hround)]
      rfl
    | underWay | pausing =>
      dsimp only
      rw [Prospect.ofTime, if_pos hdue]
      rfl

/-- A program that goes on has come to its end, unless it is cancelled. -/
theorem due_le_of_isNow (hp : Awaited k began w.request w.hold due) (hbegan : began ≤ e.now)
    (hnow : (w.prospect false e).isNow = true) : due ≤ e.now := by
  obtain ⟨sequence, r, h, next⟩ := w
  unfold Wait.prospect at hnow
  cases hp with
  | opening => exact hbegan
  | underWay | pausing =>
    simp only [Bool.false_and, Bool.false_eq_true, if_false, Prospect.ofTime] at hnow
    split at hnow
    · assumption
    · cases hnow

end Wait

/-! ## Timelines of programs -/

theorem event?_of_isCancellable {r : Request} (hr : r.isCancellable = true) : r.event? = none := by
  cases r with
  | attempt | pause => rfl
  | publish | isCancelled | clock | announce | remember | wait | call | compute => cases hr

/-- Where a program stands that has come along a timeline. -/
inductive Progress.Reached (k : Collaborators σ) (C : Option Nat) (start : Nat) (q : Program α)
    (now : Nat) : Progress α → Prop
  | finished {stamps : List Stamp} {a : α} (timeline : Timeline k C start stamps now)
    (ends : q.Ends (exchanged stamps) a) : Reached k C start q now (.finished a)
  | waiting {stamps : List Stamp} {w : Wait α} {began due : Nat}
    (timeline : Timeline k C start stamps began)
    (path : q.Path (exchanged stamps) (.ask w.request w.next))
    (pending : Awaited k began w.request w.hold due) (began_le : began ≤ now) (now_le : now ≤ due)
    (in_time : ∀ time ∈ C, now ≤ time) : Reached k C start q now (.waiting w)

section

variable {start : Nat} {q q' : Program α} {progress : Progress α} {stamps : List Stamp}

/-- A program whose request is answered comes further along its timeline. -/
theorem Timeline.answer {began now : Nat} {r : Request} {next : r.Answer → Program α} {a : r.Answer}
    (timeline : Timeline k C start stamps began) (path : q.Path (exchanged stamps) (.ask r next))
    (timely : Timely k C ⟨⟨r, a⟩, began, now⟩) :
    ∃ stamps', Timeline k C start stamps' now ∧ q.Path (exchanged stamps') (next a) := by
  refine ⟨_, timeline.snoc timely, ?_⟩
  rw [exchanged, List.map_append]
  exact path.answer a

/-- **A program that can be cancelled whenever it asks for something** comes along a timeline. -/
theorem advance_reached (hq : ∀ h r, q.Asks h r → r.isCancellable = true)
    (timeline : Timeline k C start stamps e.now) (path : q.Path (exchanged stamps) q')
    (informed : Informed C e.now cancelled) (heq : advance k cancelled e q' = (e', progress)) :
    progress.Reached k C start q e'.now := by
  induction q' generalizing e stamps with
  | done a =>
    cases heq
    exact .finished timeline path
  | ask r next ih =>
    have hr : r.isCancellable = true := hq _ r ⟨next, path⟩
    unfold advance at heq
    cases hres : e.respond k cancelled r with
    | mk e₁ reply =>
      have hgoes := Env.goes_of_respond hr informed hres
      -- The clock stands still while a request is answered or held.
      have hnow : e₁.now = e.now := (Env.calm_of_respond (event?_of_isCancellable hr) hres).now_eq
      rw [← hnow] at hgoes informed
      rw [hres] at heq
      cases hgoes with
      | answer timely =>
        rw [← hnow] at timeline
        obtain ⟨stamps', timeline', path'⟩ := timeline.answer path timely
        exact ih _ timeline' path' informed heq
      | hold pending began_le now_le in_time =>
        cases heq
        rw [← hnow] at timeline
        exact .waiting timeline path pending began_le now_le in_time

theorem Wait.resume_reached {w : Wait α} {began due : Nat}
    (hq : ∀ h r, q.Asks h r → r.isCancellable = true) (timeline : Timeline k C start stamps began)
    (path : q.Path (exchanged stamps) (.ask w.request w.next))
    (pending : Awaited k began w.request w.hold due) (hbegan : began ≤ e.now) (hnow : e.now ≤ due)
    (in_time : ∀ time ∈ C, e.now ≤ time) (informed : Informed C e.now cancelled)
    (heq : w.resume k cancelled e = (e', progress)) : progress.Reached k C start q e'.now := by
  unfold Wait.resume at heq
  split at heq
  · rename_i hisNow
    have hdue : cancelled = false → due ≤ e.now := by
      rintro rfl
      exact Wait.due_le_of_isNow pending hbegan hisNow
    cases hres : e.resume k cancelled w.request w.hold with
    | mk e₁ reply =>
      have hgoes := Env.goes_of_resume pending hbegan hnow hdue in_time informed hres
      have hsame : e₁.now = e.now := (Env.calm_of_resume hres).now_eq
      rw [← hsame] at hgoes informed
      rw [hres] at heq
      cases hgoes with
      | answer timely =>
        obtain ⟨stamps', timeline', path'⟩ := timeline.answer path timely
        exact advance_reached hq timeline' path' informed heq
      | hold pending began_le now_le in_time =>
        cases heq
        exact .waiting timeline path pending began_le now_le in_time
  · cases heq
    exact .waiting timeline path pending hbegan hnow in_time

/-- **A program that can be cancelled whenever it waits** comes along a timeline. -/
theorem Lives.reached {begun : Progress α} (hq : ∀ h r, q.Asks h r → r.isCancellable = true)
    (lives : Lives k C e begun e' progress) (hbegun : begun.Reached k C start q e.now) :
    progress.Reached k C start q e'.now := by
  induction lives with
  | here => exact hbegun
  | goesOn lives meanwhile informed resume_eq ih =>
    cases ih with
    | waiting timeline path pending began_le now_le in_time =>
      have hdeadline := pending.deadline?_eq began_le now_le
      exact Wait.resume_reached hq timeline path pending (Nat.le_trans began_le meanwhile.now_le)
        (meanwhile.le_deadline _ hdeadline) (meanwhile.le_cancellation pending.isCancellable)
        informed resume_eq

theorem Begins.reached (hq : ∀ h r, q.Asks h r → r.isCancellable = true)
    (begins : Begins k C e q e' progress) : progress.Reached k C e.now q e'.now := by
  obtain ⟨cancelled, informed, hadvance⟩ := begins
  exact advance_reached hq .start (.here q) informed hadvance

/-- The clock can stop where a program goes on. -/
theorem exists_meanwhile {w : Wait α} {began due : Nat} (hp : Awaited k began w.request w.hold due)
    (hbegan : began ≤ e.now) (hnow : e.now ≤ due) (in_time : ∀ time ∈ C, e.now ≤ time) :
    ∃ (e₂ : Env σ) (cancelled : Bool), Meanwhile C w e e₂ ∧ Informed C e₂.now cancelled ∧
      (w.prospect cancelled e₂).isNow = true := by
  have hdeadline : ∀ due' ∈ w.hold.deadline? e.now, due' = due := by
    intro due' hdue'
    rw [hp.deadline?_eq hbegan hnow] at hdue'
    exact (Option.some.inj hdue').symm
  by_cases hearly : ∃ time ∈ C, time < due
  · -- The cancellation comes first.
    obtain ⟨time, mem, hlt⟩ := hearly
    refine ⟨{ e with now := time }, true, ⟨in_time time mem, ?_, ?_⟩, ⟨time, mem, Nat.le_refl _⟩, ?_⟩
    · intro due' hdue'
      rw [hdeadline due' hdue']
      exact Nat.le_of_lt hlt
    · intro _ time' mem'
      exact Nat.le_of_eq (Option.some.inj (mem.symm.trans mem'))
    · unfold Wait.prospect
      rw [hp.isCancellable]
      rfl
  · have hlate : ∀ time ∈ C, due ≤ time := by
      intro time mem
      by_contra hlt
      exact hearly ⟨time, mem, by omega⟩
    refine ⟨{ e with now := due, round := w.hold.patience }, false, ⟨hnow, ?_, fun _ => hlate⟩, hlate,
      Wait.isNow_of_awaited hp (Nat.le_refl _) (Nat.le_refl _)⟩
    intro due' hdue'
    rw [hdeadline due' hdue']

/-- **A program with limits that can be cancelled whenever it waits comes to its end.** -/
theorem Lives.exists_finished {n : Nat} (hq : ∀ h r, q.Asks h r → r.isCancellable = true)
    (hlasts : progress.Lasts (fun _ => True) n) (hreached : progress.Reached k C start q e.now) :
    ∃ (e' : Env σ) (a : α), Lives k C e progress e' (.finished a) := by
  have hrest : ∀ m (e₁ : Env σ) (progress₁ : Progress α), progress₁.Lasts (fun _ => True) m →
      Lives k C e progress e₁ progress₁ →
      ∃ (e' : Env σ) (a : α), Lives k C e progress e' (.finished a) := by
    intro m
    induction m using Nat.strong_induction_on with
    | _ m ih =>
      intro e₁ progress₁ hlasts lives
      cases hlasts with
      | finished => exact ⟨_, _, lives⟩
      | @waiting m' w hle hw =>
        cases lives.reached hq hreached with
        | waiting _ _ pending began_le now_le in_time =>
          obtain ⟨e₂, cancelled, meanwhile, informed, hisNow⟩ :=
            exists_meanwhile pending began_le now_le in_time
          cases hresume : w.resume k cancelled e₂ with
          | mk e₃ progress₃ =>
            obtain ⟨hnot, -⟩ | ⟨m'', hless, hlasts'⟩ := Wait.resume_lasts hw hresume
            · rw [hisNow] at hnot
              cases hnot
            · exact ih m'' (by omega) e₃ progress₃ hlasts' (.goesOn lives meanwhile informed hresume)
  exact hrest n e progress hlasts .here

end

/-! ## The loop -/

section

variable {p : SyncPolicy} {what : String} {c : Call} {h : List Exchange}

/-- A loop that is told of no cancellation takes the course of its outcomes. -/
theorem exists_courseOf {n : Nat} {result : Except Failure c.Answer}
    (hends : (withRetry p what c).Ends h (n, result))
    (huntold : ∀ x ∈ h, x.showsCancellation = false) :
    ∃ o : Nat → Attempted c, IsLeast {i | Stops p what o i} n ∧ h = courseOf p o n ∧
      result = (o n).result p what := by
  cases conclusion_of_ends hends with
  | ended o first exchanges_eq => exact ⟨o, first, exchanges_eq, rfl⟩
  | @cancelled before x exchanges_eq told untold =>
    have hx := huntold x (exchanges_eq ▸ List.mem_append_right _ (List.mem_singleton.2 rfl))
    rw [told] at hx
    cases hx

theorem isCancellable_of_asks_withRetry {r : Request} (hr : (withRetry p what c).Asks h r) :
    r.isCancellable = true := by
  obtain ⟨rfl | ⟨length, rfl⟩, -⟩ := asks_withRetry hr
  · rfl
  · rfl

theorem callsOf_singleton (x : Exchange) : callsOf [x] = x.request.call?.toList := by
  rw [callsOf, List.filterMap_cons]
  cases x.request.call? <;> rfl

/-- A loop that is told of a cancellation is over, and the attempt that it has come to is its number. -/
theorem next_of_showsCancellation {r : Request}
    {next : r.Answer → Program (Nat × Except Failure c.Answer)}
    (path : (withRetry p what c).Path h (.ask r next)) {a : r.Answer}
    (told : Exchange.showsCancellation ⟨r, a⟩ = true) :
    ∃ n, next a = .done (n, .error .cancelled) ∧
      callsOf h ++ r.call?.toList = List.replicate n c := by
  have hmem : (⟨r, a⟩ : Exchange) ∈ h ++ [⟨r, a⟩] := List.mem_append_right _ (List.mem_singleton.2 rfl)
  have hpath := path.answer a
  cases hnext : next a with
  | ask r' next' =>
    rw [hnext] at hpath
    have huntold := (asks_withRetry ⟨next', hpath⟩).2 _ hmem
    rw [told] at huntold
    cases huntold
  | done x =>
    obtain ⟨n, result⟩ := x
    rw [hnext] at hpath
    have hcalls := callsOf_withRetry hpath
    rw [callsOf_append, callsOf_singleton] at hcalls
    rw [ends_withRetry_cancelled hpath hmem told]
    exact ⟨n, rfl, hcalls⟩

/-- An attempt with a number is waited for, or the pause after it, from a time to another. Nothing
happens before that but a cancellation, and this ends the loop with the number and no further call. -/
structure Interruptible (k : Collaborators σ) (c : Call) (before : List Exchange)
    (began due n : Nat) (w : Wait (Nat × Except Failure c.Answer)) : Prop where
  pending : Awaited k began w.request w.hold due
  calls_eq : callsOf before ++ w.request.call?.toList = List.replicate n c
  undisturbed : ∀ e : Env σ, began ≤ e.now → e.now < due → w.resume k false e = (e, .waiting w)
  interrupted : ∀ e : Env σ, ∃ e', (e' = e ∨ e' = e.giveUp k c) ∧
    w.resume k true e = (e', .finished (n, .error .cancelled))

/-- **Wherever the loop waits it can be interrupted.** -/
theorem interruptible_of_path {w : Wait (Nat × Except Failure c.Answer)} {began due : Nat}
    (path : (withRetry p what c).Path h (.ask w.request w.next))
    (hp : Awaited k began w.request w.hold due) : ∃ n, Interruptible k c h began due n w := by
  obtain ⟨a, told, hcut⟩ := Env.exists_cut_of_awaited hp
  obtain ⟨n, hnext, hcalls⟩ := next_of_showsCancellation path told
  refine ⟨n, hp, hcalls, fun e hbegan hlt => if_neg fun hisNow => ?_, fun e => ?_⟩
  · have hdue := Wait.due_le_of_isNow hp hbegan hisNow
    omega
  · obtain ⟨e', he', hresume⟩ := hcut e
    refine ⟨e', he'.imp_right ?_, ?_⟩
    · rintro ⟨c', hc', rfl⟩
      obtain hattempt | ⟨length, hpause⟩ := (asks_withRetry ⟨w.next, path⟩).1
      · rw [hattempt] at hc'
        obtain rfl := Option.some.inj hc'
        rfl
      · rw [hpause] at hc'
        cases hc'
    · have hisNow : (w.prospect true e).isNow = true := by
        unfold Wait.prospect
        rw [hp.isCancellable]
        rfl
      unfold Wait.resume
      rw [if_pos hisNow, hresume]
      show advance k true e' (w.next a) = _
      rw [hnext]
      rfl

/-- **A cancellation before the end** is all that becomes of a loop that waits. -/
theorem Interruptible.cases_of_lives {w : Wait (Nat × Except Failure c.Answer)} {began due n time : Nat}
    (hi : Interruptible k c h began due n w) (hbegan : began ≤ e.now) (mem : time ∈ C)
    (hlt : time < due) {progress : Progress (Nat × Except Failure c.Answer)}
    (lives : Lives k C e (.waiting w) e' progress) :
    (progress = .waiting w ∧ began ≤ e'.now) ∨
      progress = .finished (n, .error .cancelled) ∧ e'.now = time := by
  induction lives with
  | here => exact .inl ⟨rfl, hbegan⟩
  | @goesOn cancelled e₁ e₂ e' w' progress' lives meanwhile informed resume_eq ih =>
    obtain ⟨hsame, hbegan₁⟩ | ⟨hfinished, -⟩ := ih
    · obtain rfl := Progress.waiting.inj hsame
      have hle : e₂.now ≤ time := meanwhile.le_cancellation hi.pending.isCancellable time mem
      have hbegan₂ : began ≤ e₂.now := Nat.le_trans hbegan₁ meanwhile.now_le
      cases cancelled with
      | false =>
        rw [hi.undisturbed e₂ hbegan₂ (by omega)] at resume_eq
        cases resume_eq
        exact .inl ⟨rfl, hbegan₂⟩
      | true =>
        obtain ⟨time', mem', hle'⟩ := informed
        obtain rfl : time' = time := Option.some.inj (mem'.symm.trans mem)
        obtain ⟨e₃, hsame, hresume⟩ := hi.interrupted e₂
        rw [hresume] at resume_eq
        cases resume_eq
        refine .inr ⟨rfl, Nat.le_antisymm ?_ ?_⟩
        · rcases hsame with rfl | rfl <;> exact hle
        · rcases hsame with rfl | rfl <;> exact hle'
    · cases hfinished

/-! ## All together -/

/-- **The loop of attempts.** Whatever the attempts come to, the loop ends with the first of them that
is not made again, or with the last that the policy allows, and with what this came to; each pause has
the length that belongs to its attempt, and none follows the last one. There is no other way for it to
end but a cancellation. On the clock every attempt and every pause takes its time, the loop ends, and a
cancellation that comes before anything has ended ends it at once, without another call. So the attempts
that are reported of a target are the calls that were made for it. -/
theorem retry_loop (p : SyncPolicy) (what : String) (c : Call) :
    (∀ o : Nat → Attempted c, ∃ n, IsLeast {i | Stops p what o i} n ∧ n ≤ attemptLimit p ∧
      (withRetry p what c).Ends (courseOf p o n) (n, (o n).result p what)) ∧
    (∀ h n result, (withRetry p what c).Ends h (n, result) →
      n ≤ attemptLimit p ∧ (p.retry.maxAttempts < 2 ^ 32 → n < 2 ^ 32) ∧
        callsOf h = List.replicate n c ∧ Conclusion p what c h n result) ∧
    (∀ (σ : Type) (k : Collaborators σ) (C : Option Nat) (e e₁ : Env σ) begun,
      Begins k C e (withRetry p what c) e₁ begun →
      (∃ e' n result, Lives k C e₁ begun e' (.finished (n, result))) ∧
      (∀ e' n result, Lives k C e₁ begun e' (.finished (n, result)) →
        ∃ stamps, Timeline k C e.now stamps e'.now ∧
          (withRetry p what c).Ends (exchanged stamps) (n, result) ∧
          ((∀ time ∈ C, e'.now < time) → ∃ o : Nat → Attempted c, IsLeast {i | Stops p what o i} n ∧
            exchanged stamps = courseOf p o n ∧ result = (o n).result p what)) ∧
      ∀ e' w, Lives k C e₁ begun e' (.waiting w) →
        ∃ stamps began due n, Timeline k C e.now stamps began ∧ began ≤ e'.now ∧ e'.now ≤ due ∧
          Interruptible k c (exchanged stamps) began due n w ∧
          ∀ time ∈ C, time < due → ∀ e'' x, Lives k C e' (.waiting w) e'' (.finished x) →
            x = (n, .error .cancelled) ∧ e''.now = time) ∧
    ∀ trigger t epoch, Run p trigger t (.ended epoch) → ∀ r ∈ epoch.kinds, ∀ report ∈ r.targets,
      report.attempts = ((calls t).filter fun c => fetchedBy? c = some report.target).length := by
  have hcancellable : ∀ h r, (withRetry p what c).Asks h r → r.isCancellable = true :=
    fun _ _ hr => isCancellable_of_asks_withRetry hr
  refine ⟨fun o => ?_, fun h n result hends => ?_, fun σ k C e e₁ begun begins =>
    ⟨?_, fun e' n result lives => ?_, fun e' w lives => ?_⟩,
    fun trigger t epoch run r hr report hreport => run.attempts_eq hr hreport⟩
  · obtain ⟨n, hn, hle⟩ := exists_first_stop o
    exact ⟨n, hn, hle, ends_courseOf hn⟩
  · have hle : n ≤ attemptLimit p := by
      obtain ⟨_, _, _, _, hle, -⟩ := ends_withRetry_iff.1 hends
      exact hle
    refine ⟨hle, fun hmax => ?_, callsOf_withRetry hends, conclusion_of_ends hends⟩
    unfold attemptLimit at hle
    omega
  · have hlasts : begun.Lasts (fun _ => True) (2 * retrySpan p) := by
      obtain ⟨cancelled, -, hadvance⟩ := begins
      exact advance_lasts within_withRetry hadvance
    obtain ⟨e', ⟨n, result⟩, lives⟩ :=
      Lives.exists_finished hcancellable hlasts (begins.reached hcancellable)
    exact ⟨e', n, result, lives⟩
  · cases lives.reached hcancellable (begins.reached hcancellable) with
    | finished timeline ends =>
      refine ⟨_, timeline, ends, fun hbefore => ?_⟩
      have huntold : ∀ x ∈ exchanged _, x.showsCancellation = false :=
        fun x hx => timeline.showsCancellation_eq hbefore hx
      exact exists_courseOf ends huntold
  · cases lives.reached hcancellable (begins.reached hcancellable) with
    | waiting timeline path pending began_le now_le in_time =>
      obtain ⟨n, hn⟩ := interruptible_of_path path pending
      refine ⟨_, _, _, n, timeline, began_le, now_le, hn, fun time mem hlt e'' x hlives => ?_⟩
      obtain ⟨hwaiting, -⟩ | ⟨hfinished, hnow⟩ := hn.cases_of_lives began_le mem hlt hlives
      · cases hwaiting
      · exact ⟨Progress.finished.inj hfinished, hnow⟩

end

/-- Collaborators that answer every call after five milliseconds, and the first one with a failure. -/
def Collaborators.flaky : Collaborators Nat where
  givesWay _ := false
  start n _ _ _ := (⟨some 5, if n = 0 then some (.status 503 "busy") else none⟩, n + 1)
  answer
    | n, _, .metadata => (.ok ⟨⟨"2"⟩, ⟨"1"⟩⟩, n)
    | n, _, _ => (.error (.status 404 "unknown"), n)
  finish n _ := n

/-- Three attempts are made when none is answered: that an attempt takes too long may pass, and the policy
allows no fourth one. With collaborators whose first answer is a failure the loop ends, and it is cancelled
with its first attempt when the cancellation comes before that. -/
theorem retry_loop_flaky :
    ((withRetry .fullOnly "metadata" .metadata).Ends
        (courseOf .fullOnly (fun _ => (none : Attempted .metadata)) 3)
        (3, Attempted.result .fullOnly "metadata" (none : Attempted .metadata)) ∧
      callsOf (courseOf .fullOnly (fun _ => (none : Attempted .metadata)) 3) =
        List.replicate 3 .metadata ∧
      SyncPolicy.fullOnly.retry.maxAttempts < 2 ^ 32 ∧ 3 < 2 ^ 32) ∧
    (∃ e₁ begun e' n result, Begins .flaky none ⟨0, 0, false, 0, .create [], 0⟩
        (withRetry .fullOnly "metadata" .metadata) e₁ begun ∧
      Lives .flaky none e₁ begun e' (.finished (n, result)) ∧
      ∃ o : Nat → Attempted .metadata, IsLeast {i | Stops .fullOnly "metadata" o i} n ∧
        result = (o n).result .fullOnly "metadata") ∧
    (∃ e₁ w n, Begins .flaky (some 3) ⟨0, 0, false, 0, .create [], 0⟩
        (withRetry .fullOnly "metadata" .metadata) e₁ (.waiting w) ∧
      ∀ e' x, Lives .flaky (some 3) e₁ (.waiting w) e' (.finished x) →
        x = (n, .error .cancelled) ∧ e'.now = 3) ∧
    ∃ t epoch r, Run .fullOnly .manual t (.ended epoch) ∧ r ∈ epoch.kinds ∧ ∃ report ∈ r.targets,
      report.attempts = ((calls t).filter fun c => fetchedBy? c = some report.target).length := by
  obtain ⟨courses, ends, times, attempts⟩ := retry_loop .fullOnly "metadata" .metadata
  refine ⟨?_, ?_, ?_, ?_⟩
  · obtain ⟨n, ⟨⟨-, hstops⟩, -⟩, hle, hends⟩ := courses fun _ => none
    have hpasses : Attempted.Passes .fullOnly "metadata" (none : Attempted .metadata) := ⟨_, rfl, rfl⟩
    obtain rfl : n = 3 := by
      rcases hstops with hfinal | hge
      · exact absurd hpasses hfinal
      · exact Nat.le_antisymm hle hge
    obtain ⟨-, hcounted, hcalls, -⟩ := ends _ _ _ hends
    have hmax : SyncPolicy.fullOnly.retry.maxAttempts < 2 ^ 32 := by decide
    exact ⟨hends, hcalls, hmax, hcounted hmax⟩
  · have begins : Begins .flaky none ⟨0, 0, false, 0, .create [], 0⟩
        (withRetry .fullOnly "metadata" .metadata) _ _ := ⟨false, nofun, rfl⟩
    obtain ⟨⟨e', n, result, lives⟩, finished, -⟩ := times _ _ _ _ _ _ begins
    obtain ⟨stamps, -, -, huncut⟩ := finished _ _ _ lives
    obtain ⟨o, hleast, -, hresult⟩ := huncut nofun
    exact ⟨_, _, e', n, result, begins, lives, o, hleast, hresult⟩
  · have hinformed : Informed (some 3) 0 false := by
      rintro _ ⟨⟩
      decide
    obtain ⟨e₁, w, hadvance⟩ : ∃ e₁ w, advance .flaky false ⟨0, 0, false, 0, .create [], 0⟩
        (withRetry .fullOnly "metadata" .metadata) = (e₁, .waiting w) := ⟨_, _, rfl⟩
    have begins : Begins .flaky (some 3) ⟨0, 0, false, 0, .create [], 0⟩
        (withRetry .fullOnly "metadata" .metadata) e₁ (.waiting w) := ⟨false, hinformed, hadvance⟩
    obtain ⟨-, -, waiting⟩ := times _ _ _ _ _ _ begins
    obtain ⟨stamps, began, due, n, -, hbegan, hnow, hi, hcancelled⟩ := waiting _ _ .here
    have hdue := hi.pending.deadline?_eq hbegan hnow
    cases hadvance
    obtain rfl : 5 = due := Option.some.inj hdue
    exact ⟨_, _, n, begins, hcancelled 3 rfl (by decide)⟩
  · let played := (Conduct.newGameData fun _ => false).play .fullOnly .manual false
    have run : Run .fullOnly .manual played.history (.ended played.result) := Conduct.play_run false
    obtain ⟨r, report, hr, hreport⟩ : ∃ r report, r ∈ played.result.kinds ∧ report ∈ r.targets :=
      ⟨_, _, List.mem_of_getElem? (i := 0) rfl, List.mem_of_getElem? (i := 0) rfl⟩
    exact ⟨_, _, r, run, hr, report, hreport, attempts _ _ _ run r hr report hreport⟩

end ContentSync.Engine
