import ContentSync.Proofs.Engine.OnTheClock

/-!
# What a turn does

When an epoch is let in or gone on with, the place of the one epoch that may run stays taken until it
is over, and what is done with collaborators is added to a record.

* `Mark`, `Recorded`, `Collaborators.recorded` — collaborators with a record;
* `Env.Continues` — what becomes of the place and of the record while programs run;
* `Env.Leaves` — what becomes of them in a turn of an epoch;
* `beginEpoch_inFlight`, `beginEpoch_free` — an epoch is let in exactly when none is in flight;
* `Stage.resume_leaves` — a turn of an epoch that is in flight.
-/

set_option autoImplicit false

namespace ContentSync.Engine

variable {σ α : Type}

/-! ## Records -/

/-- Something that is done with collaborators. -/
inductive Mark where
  | started (c : Call)
  | answered (c : Call)
  | finished (c : Call)

/-- Collaborators and a record of what has been done with them. -/
structure Recorded (σ : Type) where
  inner : σ
  marks : List Mark

/-- The same collaborators, with a record. -/
def Collaborators.recorded (k : Collaborators σ) : Collaborators (Recorded σ) where
  givesWay := k.givesWay
  start o now phase c :=
    let (course, inner) := k.start o.inner now phase c
    (course, ⟨inner, o.marks ++ [.started c]⟩)
  answer o now c :=
    let (result, inner) := k.answer o.inner now c
    (result, ⟨inner, o.marks ++ [.answered c]⟩)
  finish o c := ⟨k.finish o.inner c, o.marks ++ [.finished c]⟩

/-- The same setup, with a record. -/
def Setup.recorded (s : Setup σ) : Setup (Recorded σ) :=
  ⟨s.collaborators.recorded, s.policy, s.playerLifetime⟩

/-! ## Programs -/

/-- Whether an epoch is in flight stays as it is, and the record grows. -/
structure Env.Continues (e e' : Env (Recorded σ)) : Prop where
  inFlight_eq : e'.orchestrator.inFlight = e.orchestrator.inFlight
  marks : e.outside.marks <+: e'.outside.marks

section

variable {k : Collaborators σ} {cancelled : Bool} {e e₁ e' : Env (Recorded σ)}

namespace Env

theorem Continues.refl (e : Env (Recorded σ)) : e.Continues e := ⟨rfl, List.prefix_rfl⟩

theorem Continues.trans (h : e.Continues e₁) (h' : e₁.Continues e') : e.Continues e' :=
  ⟨h'.inFlight_eq.trans h.inFlight_eq, h.marks.trans h'.marks⟩

/-- Nothing but the record is done with the collaborators. -/
theorem Continues.of_append {o : Recorded σ} {marks : List Mark}
    (h : o.marks = e.outside.marks ++ marks) : e.Continues { e with outside := o } :=
  ⟨rfl, ⟨marks, h.symm⟩⟩

theorem continues_publish (shown : Phase) : e.Continues (e.publish shown) :=
  ⟨rfl, List.prefix_rfl⟩

theorem continues_start (c : Call) : e.Continues (e.start k.recorded c).2 := .of_append rfl

theorem continues_giveUp (c : Call) : e.Continues (e.giveUp k.recorded c) := .of_append rfl

theorem continues_answer (c : Call) (course : Course) :
    e.Continues (e.answer k.recorded c course).1 := by
  unfold Env.answer
  dsimp only
  split
  · exact .of_append rfl
  · exact .of_append (List.append_assoc ..)

theorem continues_conclude (c : Call) (course : Course) (late : Bool) :
    e.Continues (e.conclude k.recorded c course late).1 := by
  unfold Env.conclude
  split
  · exact continues_giveUp c
  · exact continues_answer c course

theorem continues_openUnlimited (c : Call) : e.Continues (e.openUnlimited k.recorded c).1 := by
  unfold Env.openUnlimited
  dsimp only
  split
  · exact (continues_start c).trans (continues_answer ..)
  · exact continues_start c

theorem continues_openLimited (c : Call) (limit : Nat) :
    e.Continues (e.openLimited k.recorded c limit).1 := by
  unfold Env.openLimited
  dsimp only
  split
  · exact (continues_start c).trans (continues_conclude ..)
  · exact continues_start c

theorem continues_callLimited (c : Call) (limit : Nat) :
    e.Continues (e.callLimited k.recorded c limit).1 := by
  unfold Env.callLimited
  split
  · split <;> exact .refl e
  · exact continues_openLimited c limit

/-- **A request leaves the place alone, and adds to the record.** -/
theorem continues_respond (k : Collaborators σ) (cancelled : Bool) (e : Env (Recorded σ))
    (r : Request) : e.Continues (e.respond k.recorded cancelled r).1 := by
  cases r with
  | publish | isCancelled | clock | announce | remember | compute => exact ⟨rfl, List.prefix_rfl⟩
  | wait c =>
    simp only [Env.respond, Env.callUnlimited]
    split
    · exact .refl e
    · exact continues_openUnlimited c
  | call c limit => exact continues_callLimited c limit.milliseconds
  | attempt c limit =>
    simp only [Env.respond]
    split
    · exact .refl e
    · exact continues_callLimited c limit.milliseconds
  | pause length =>
    simp only [Env.respond]
    split
    · exact .refl e
    · split <;> exact .refl e

theorem continues_resume (k : Collaborators σ) (cancelled : Bool) (e : Env (Recorded σ))
    (r : Request) (h : Hold) :
    e.Continues (e.resume k.recorded cancelled r h).1 := by
  cases r with
  | publish | isCancelled | clock | announce | remember => exact .refl e
  | wait c =>
    cases h with
    | opening => exact continues_openUnlimited c
    | underWay course => exact continues_answer c course
    | pausing | computing => exact .refl e
  | call c limit =>
    cases h with
    | opening => exact continues_openLimited c limit.milliseconds
    | underWay course _ late => exact continues_conclude c course late
    | pausing | computing => exact .refl e
  | attempt c limit =>
    cases h with
    | opening =>
      simp only [Env.resume]
      split
      · exact .refl e
      · exact continues_openLimited c limit.milliseconds
    | underWay course _ late =>
      simp only [Env.resume]
      split
      · exact continues_giveUp c
      · exact continues_conclude c course late
    | pausing | computing => exact .refl e
  | pause | compute => cases h <;> exact .refl e

end Env

theorem continues_advance (k : Collaborators σ) (cancelled : Bool) (e : Env (Recorded σ))
    (q : Program α) :
    e.Continues (advance k.recorded cancelled e q).1 := by
  induction q generalizing e with
  | done => exact .refl e
  | ask r next ih =>
    have hrespond := Env.continues_respond k cancelled e r
    unfold advance
    split
    · rename_i e₁ a heq
      rw [heq] at hrespond
      exact hrespond.trans (ih a e₁)
    · rename_i e₁ h heq
      rw [heq] at hrespond
      exact hrespond.trans ⟨rfl, List.prefix_rfl⟩

theorem continues_of_advance {q : Program α} {progress : Progress α}
    (heq : advance k.recorded cancelled e q = (e', progress)) : e.Continues e' := by
  have h := continues_advance k cancelled e q
  rw [heq] at h
  exact h

theorem Wait.continues_resume (k : Collaborators σ) (cancelled : Bool) (e : Env (Recorded σ))
    (w : Wait α) :
    e.Continues (w.resume k.recorded cancelled e).1 := by
  have hresume := Env.continues_resume k cancelled e w.request w.hold
  unfold Wait.resume
  split
  · split
    · rename_i e₁ a heq
      rw [heq] at hresume
      exact hresume.trans (continues_advance ..)
    · rename_i e₁ h heq
      rw [heq] at hresume
      exact hresume.trans ⟨rfl, List.prefix_rfl⟩
  · exact .refl e

theorem Wait.continues_of_resume {w : Wait α} {progress : Progress α}
    (heq : w.resume k.recorded cancelled e = (e', progress)) : e.Continues e' := by
  have h := w.continues_resume k cancelled e
  rw [heq] at h
  exact h

end

/-! ## Epochs -/

/-- Whether an epoch is still under way. -/
def Standing.isUnder : Standing → Bool
  | ended _ => false
  | under _ => true

/-- After a turn of an epoch the place is taken if it was before and the epoch is not over. -/
structure Env.Leaves (e e' : Env (Recorded σ)) (standing : Standing) : Prop where
  inFlight_eq : e'.orchestrator.inFlight = (standing.isUnder && e.orchestrator.inFlight)
  marks : e.outside.marks <+: e'.outside.marks

section

variable {s : Setup σ} {cancelled : Bool} {e e₁ e' : Env (Recorded σ)} {epoch : Epoch}
  {f f' : Fetching} {slots slots' : List (Nat × Wait Fetched)} {standing : Standing}

theorem Env.Continues.leaves (h : e.Continues e₁) (h' : e₁.Leaves e' standing) :
    e.Leaves e' standing :=
  ⟨by rw [h'.inFlight_eq, h.inFlight_eq], h.marks.trans h'.marks⟩

theorem Env.Continues.under {stage : Stage} (h : e.Continues e') : e.Leaves e' (.under stage) :=
  ⟨by simp [Standing.isUnder, h.inFlight_eq], h.marks⟩

theorem leaves_runConcluding {progress : Progress Epoch} (h : e.Continues e₁)
    (heq : runConcluding (e₁, progress) = (e', standing)) : e.Leaves e' standing := by
  cases progress with
  | finished epoch =>
    cases heq
    exact ⟨rfl, h.marks⟩
  | waiting w =>
    cases heq
    exact h.under

theorem leaves_runWriting {q : Program Epoch}
    (heq : runWriting s.recorded cancelled e q = (e', standing)) : e.Leaves e' standing :=
  leaves_runConcluding (continues_advance ..) heq

theorem continues_startJobs (heq : startJobs s.recorded cancelled e f slots = (e', f', slots')) :
    e.Continues e' := by
  fun_induction startJobs s.recorded cancelled e f slots with
  | case1 =>
    cases heq
    exact .refl _
  | case2 e f slots number job g hnext _ e₁ result hadvance _ ih =>
    exact (continues_of_advance hadvance).trans ((Env.continues_publish _).trans (ih heq))
  | case3 e f slots number job g hnext _ e₁ w hadvance ih =>
    exact (continues_of_advance hadvance).trans (ih heq)

theorem leaves_runFetching
    (heq : runFetching s.recorded cancelled e epoch f slots = (e', standing)) :
    e.Leaves e' standing := by
  unfold runFetching at heq
  cases hstart : startJobs s.recorded cancelled e f slots with
  | mk e₁ started =>
  obtain ⟨f₁, slots₁⟩ := started
  rw [hstart] at heq
  have h := continues_startJobs hstart
  dsimp only at heq
  split at heq
  · exact h.leaves (leaves_runWriting heq)
  · cases heq
    exact h.under

theorem leaves_runChecked {progress : Progress Checked} (h : e.Continues e₁)
    (heq : runChecked s.recorded cancelled (e₁, progress) = (e', standing)) :
    e.Leaves e' standing := by
  cases progress with
  | waiting w =>
    cases heq
    exact h.under
  | finished checked =>
    cases checked with
    | stopped epoch => exact h.leaves (leaves_runWriting heq)
    | ready epoch jobs =>
      exact (h.trans (Env.continues_publish _)).leaves (leaves_runFetching heq)

theorem leaves_runEpoch {trigger : Trigger}
    (heq : runEpoch s.recorded cancelled e trigger = (e', standing)) : e.Leaves e' standing := by
  have h := continues_advance s.collaborators cancelled e (checking s.policy trigger)
  exact leaves_runChecked (s := s) h heq

theorem continues_resumeJobs
    (heq : resumeJobs s.recorded cancelled e f slots = (e', f', slots')) : e.Continues e' := by
  induction slots generalizing e f slots' with
  | nil =>
    cases heq
    exact .refl _
  | cons slot rest ih =>
    obtain ⟨number, w⟩ := slot
    unfold resumeJobs at heq
    split at heq
    · rename_i e₁ result hresume
      have h := Wait.continues_of_resume hresume
      exact (h.trans (Env.continues_publish _)).trans (ih heq)
    · rename_i e₁ w' hresume
      have h := Wait.continues_of_resume hresume
      cases hjobs : resumeJobs s.recorded cancelled e₁ f rest with
      | mk e₂ resumed =>
        rw [hjobs] at heq
        cases heq
        exact h.trans (ih hjobs)

/-- **A turn of an epoch.** -/
theorem Stage.resume_leaves {stage : Stage}
    (heq : stage.resume s.recorded cancelled e = (e', standing)) : e.Leaves e' standing := by
  cases stage with
  | checking w => exact leaves_runChecked (Wait.continues_resume ..) heq
  | fetching epoch f slots =>
    cases hresume : resumeJobs s.recorded cancelled e f slots with
    | mk e₁ resumed =>
      simp only [Stage.resume, hresume] at heq
      exact (continues_resumeJobs hresume).leaves (leaves_runFetching heq)
  | writing w => exact leaves_runConcluding (Wait.continues_resume ..) heq

/-! ## Letting epochs in -/

/-- While an epoch is in flight no other one is let in, and nothing changes. -/
theorem beginEpoch_inFlight {σ : Type} {s : Setup σ} {e : Env σ} {trigger : Trigger}
    (h : e.orchestrator.inFlight = true) :
    beginEpoch s cancelled e trigger = (e, .error .inFlight) := by
  simp [beginEpoch, Orchestrator.accept, h]

/-- While none is in flight the next one is let in. -/
theorem beginEpoch_free (s : Setup σ) (cancelled : Bool) (trigger : Trigger)
    (h : e.orchestrator.inFlight = false) :
    ∃ e₀ e' standing, beginEpoch s.recorded cancelled e trigger = (e', .ok standing) ∧
      runEpoch s.recorded cancelled e₀ trigger = (e', standing) ∧
      e'.orchestrator.inFlight = standing.isUnder ∧ e.outside.marks <+: e'.outside.marks := by
  let e₀ : Env (Recorded σ) := { e with orchestrator := { e.orchestrator with inFlight := true } }
  cases hrun : runEpoch s.recorded cancelled e₀ trigger with
  | mk e' standing =>
    have hleaves := leaves_runEpoch hrun
    refine ⟨e₀, e', standing, ?_, hrun, ?_, hleaves.marks⟩
    · simp only [beginEpoch, Orchestrator.accept, h, Bool.false_eq_true, if_false]
      exact congrArg (fun x => (x.1, Except.ok x.2)) hrun
    · rw [hleaves.inFlight_eq]
      exact Bool.and_true _

end

end ContentSync.Engine
