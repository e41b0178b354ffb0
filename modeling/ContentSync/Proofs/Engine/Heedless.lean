import ContentSync.Proofs.Engine.Upshot
import ContentSync.Proofs.Engine.Traffic

/-!
# Epochs do not heed the delivery

An epoch announces its event, and does the same whether somebody will deliver it or not. What has been
queued, what the sinks are, and whether anybody listens makes no difference to it, nor to what it does
with the collaborators.

* `Env.withMailbox` — the same with another mailbox;
* `Heedless` / `Discreet.heedless`, `Closing.heedless` — programs that do not heed it;
* `advance_withMailbox` — such programs do the same with another mailbox;
* `beginEpoch_withMailbox`, `Stage.resume_withMailbox` — so do epochs;
* `Scene.Step.withMailbox` — so does everything that happens with epochs;
* `Scene.Parallel` / `Scene.Parallel.withMailbox` — scenes that differ in the delivery only.
-/

set_option autoImplicit false

namespace ContentSync.Engine

open Program

variable {σ α β : Type} {k : Collaborators σ} {cancelled : Bool} {e e' : Env σ}

/-! ## Requests -/

namespace Env

/-- The same with another mailbox. -/
def withMailbox (e : Env σ) (m : Mailbox) : Env σ :=
  { e with orchestrator := { e.orchestrator with mailbox := m } }

variable (m : Mailbox)

theorem answer_withMailbox (c : Call) (course : Course) :
    (e.withMailbox m).answer k c course =
      ((e.answer k c course).1.withMailbox m, (e.answer k c course).2) := by
  unfold Env.answer
  dsimp only
  split <;> rfl

theorem conclude_withMailbox (c : Call) (course : Course) (late : Bool) :
    (e.withMailbox m).conclude k c course late =
      ((e.conclude k c course late).1.withMailbox m, (e.conclude k c course late).2) := by
  unfold Env.conclude
  split
  · rfl
  · simp only [answer_withMailbox]

theorem openUnlimited_withMailbox (c : Call) :
    (e.withMailbox m).openUnlimited k c =
      ((e.openUnlimited k c).1.withMailbox m, (e.openUnlimited k c).2) := by
  have hstart : (e.withMailbox m).start k c =
      ((e.start k c).1, (e.start k c).2.withMailbox m) := rfl
  unfold Env.openUnlimited
  simp only [hstart]
  split
  · simp only [answer_withMailbox]
  · rfl

theorem openLimited_withMailbox (c : Call) (limit : Nat) :
    (e.withMailbox m).openLimited k c limit =
      ((e.openLimited k c limit).1.withMailbox m, (e.openLimited k c limit).2) := by
  have hstart : (e.withMailbox m).start k c =
      ((e.start k c).1, (e.start k c).2.withMailbox m) := rfl
  unfold Env.openLimited
  simp only [hstart]
  split
  · simp only [conclude_withMailbox]
  · rfl

theorem callLimited_withMailbox (c : Call) (limit : Nat) :
    (e.withMailbox m).callLimited k c limit =
      ((e.callLimited k c limit).1.withMailbox m, (e.callLimited k c limit).2) := by
  unfold Env.callLimited
  split
  · split <;> rfl
  · exact openLimited_withMailbox m c limit

variable {m}

/-- **Whatever is asked but an announcement** is answered the same with another mailbox. -/
theorem respond_withMailbox {r : Request} {reply : Reply r.Answer} (hr : r.event? = none)
    (heq : e.respond k cancelled r = (e', reply)) :
    (e.withMailbox m).respond k cancelled r = (e'.withMailbox m, reply) := by
  suffices h : (e.withMailbox m).respond k cancelled r =
      ((e.respond k cancelled r).1.withMailbox m, (e.respond k cancelled r).2) by rw [h, heq]
  cases r with
  | announce => cases hr
  | publish | isCancelled | clock | remember | compute => rfl
  | wait c =>
    simp only [Env.respond, Env.callUnlimited]
    split
    · rfl
    · exact openUnlimited_withMailbox m c
  | call c limit => exact callLimited_withMailbox m c limit.milliseconds
  | attempt c limit =>
    simp only [Env.respond]
    split
    · rfl
    · simp only [callLimited_withMailbox]
  | pause length =>
    simp only [Env.respond]
    split
    · rfl
    · split <;> rfl

/-- Whatever has been waited for is answered the same with another mailbox. -/
theorem resume_withMailbox {r : Request} {h : Hold} {reply : Reply r.Answer}
    (heq : e.resume k cancelled r h = (e', reply)) :
    (e.withMailbox m).resume k cancelled r h = (e'.withMailbox m, reply) := by
  suffices hsame : (e.withMailbox m).resume k cancelled r h =
      ((e.resume k cancelled r h).1.withMailbox m, (e.resume k cancelled r h).2) by
    rw [hsame, heq]
  cases r with
  | publish | isCancelled | clock | announce | remember => rfl
  | wait c =>
    cases h with
    | opening => exact openUnlimited_withMailbox m c
    | underWay course => simp only [Env.resume, answer_withMailbox]
    | pausing | computing => rfl
  | call c limit =>
    cases h with
    | opening => exact openLimited_withMailbox m c limit.milliseconds
    | underWay course _ late => simp only [Env.resume, conclude_withMailbox]
    | pausing | computing => rfl
  | attempt c limit =>
    cases h with
    | opening =>
      simp only [Env.resume]
      split
      · rfl
      · simp only [openLimited_withMailbox]
    | underWay course _ late =>
      simp only [Env.resume]
      split
      · rfl
      · simp only [conclude_withMailbox]
    | pausing | computing => rfl
  | pause | compute => cases h <;> rfl

end Env

/-! ## Programs -/

/-- A program that does the same whether anybody will deliver what it announces. -/
inductive Heedless : Program α → Prop
  | done (a : α) : Heedless (.done a)
  | announce (event : Event) {q : Program α} (h : Heedless q) :
    Heedless (.ask (.announce event) fun _ => q)
  | ask {r : Request} {next : r.Answer → Program α} (discreet : r.event? = none)
    (hnext : ∀ a, Heedless (next a)) : Heedless (.ask r next)

theorem Discreet.heedless {q : Program α} (hq : Discreet q) : Heedless q := by
  induction q with
  | done a => exact .done a
  | ask r next ih => exact .ask hq.head fun a => ih a (hq.next a)

/-- The announcement of an epoch is the last thing that it does but for keeping it. -/
theorem Closing.heedless {q : Program Epoch} (hq : Closing q) : Heedless q := by
  induction hq with
  | announcing finished =>
    exact .ask rfl fun _ => .announce _ (.ask rfl fun _ => .ask rfl fun _ => .done finished)
  | ask discreet _ ih => exact .ask discreet ih

/-- **A program that does not heed the delivery** does the same with another mailbox. -/
theorem advance_withMailbox {q : Program α} {progress : Progress α} (hq : Heedless q) (m : Mailbox)
    (heq : advance k cancelled e q = (e', progress)) :
    ∃ m', advance k cancelled (e.withMailbox m) q = (e'.withMailbox m', progress) := by
  induction hq generalizing e m with
  | done a =>
    cases heq
    exact ⟨m, rfl⟩
  | announce event h ih =>
    -- Whether the event is queued or lost, the program goes on with the same.
    exact @ih { e with orchestrator := (e.orchestrator.announce event).2 } (m.emit event).2 heq
  | @ask r next discreet hnext ih =>
    unfold advance at heq ⊢
    cases hres : e.respond k cancelled r with
    | mk e₁ reply =>
      rw [hres] at heq
      rw [Env.respond_withMailbox discreet hres]
      cases reply with
      | answer a => exact ih a m heq
      | hold h =>
        cases heq
        exact ⟨m, rfl⟩

theorem Wait.resume_withMailbox {w : Wait α} {progress : Progress α}
    (hw : ∀ a, Heedless (w.next a)) (m : Mailbox)
    (heq : w.resume k cancelled e = (e', progress)) :
    ∃ m', w.resume k cancelled (e.withMailbox m) = (e'.withMailbox m', progress) := by
  have hprospect : w.prospect cancelled (e.withMailbox m) = w.prospect cancelled e := rfl
  unfold Wait.resume at heq ⊢
  rw [hprospect]
  split at heq
  · rename_i hnow
    rw [if_pos hnow]
    cases hres : e.resume k cancelled w.request w.hold with
    | mk e₁ reply =>
      rw [hres] at heq
      rw [Env.resume_withMailbox hres]
      cases reply with
      | answer a => exact advance_withMailbox (hw a) m heq
      | hold h =>
        cases heq
        exact ⟨m, rfl⟩
  · rename_i hnot
    rw [if_neg hnot]
    cases heq
    exact ⟨m, rfl⟩

/-! ## Epochs -/

section

variable {s : Setup σ} {trigger : Trigger} {epoch : Epoch} {f f' : Fetching}
  {slots slots' : List (Nat × Wait Fetched)} {standing : Standing}

theorem runConcluding_withMailbox {progress : Progress Epoch} (m : Mailbox)
    (heq : runConcluding (e, progress) = (e', standing)) :
    runConcluding (e.withMailbox m, progress) = (e'.withMailbox m, standing) := by
  cases progress <;> cases heq <;> rfl

theorem runWriting_withMailbox {q : Program Epoch} (hq : Heedless q) (m : Mailbox)
    (heq : runWriting s cancelled e q = (e', standing)) :
    ∃ m', runWriting s cancelled (e.withMailbox m) q = (e'.withMailbox m', standing) := by
  unfold runWriting at heq ⊢
  cases hadvance : advance s.collaborators cancelled e q with
  | mk e₁ progress =>
    obtain ⟨m', h⟩ := advance_withMailbox hq m hadvance
    rw [hadvance] at heq
    rw [h]
    exact ⟨m', runConcluding_withMailbox m' heq⟩

theorem startJobs_of_none (hnext : f.next? = none) :
    startJobs s cancelled e f slots = (e, f, slots) := by
  rw [startJobs]
  split
  · rfl
  · simp_all

theorem startJobs_of_some {number : Nat} {job : Job} {g : Fetching}
    (hnext : f.next? = some (number, job, g)) :
    startJobs s cancelled e f slots =
      match advance s.collaborators cancelled e (fetchOne s.policy job) with
      | (e, .finished result) =>
        startJobs s cancelled (e.publish (g.finish number result).phase) (g.finish number result)
          slots
      | (e, .waiting w) => startJobs s cancelled e g (slots ++ [(number, w)]) := by
  rw [startJobs]
  split
  · simp_all
  · rename_i hnext'
    cases hnext.symm.trans hnext'
    rfl

theorem startJobs_withMailbox (m : Mailbox)
    (heq : startJobs s cancelled e f slots = (e', f', slots')) :
    ∃ m', startJobs s cancelled (e.withMailbox m) f slots = (e'.withMailbox m', f', slots') := by
  fun_induction startJobs s cancelled e f slots generalizing m with
  | case1 e f slots hnext =>
    cases heq
    exact ⟨m, startJobs_of_none hnext⟩
  | case2 e f slots number job g hnext _ e₁ result hadvance _ ih =>
    obtain ⟨m₁, h⟩ := advance_withMailbox (discreet_fetchOne s.policy job).heedless m hadvance
    rw [startJobs_of_some hnext, h]
    exact ih m₁ heq
  | case3 e f slots number job g hnext _ e₁ w hadvance ih =>
    obtain ⟨m₁, h⟩ := advance_withMailbox (discreet_fetchOne s.policy job).heedless m hadvance
    rw [startJobs_of_some hnext, h]
    exact ih m₁ heq

theorem runFetching_withMailbox (m : Mailbox)
    (heq : runFetching s cancelled e epoch f slots = (e', standing)) :
    ∃ m', runFetching s cancelled (e.withMailbox m) epoch f slots =
      (e'.withMailbox m', standing) := by
  unfold runFetching at heq ⊢
  cases hstart : startJobs s cancelled e f slots with
  | mk e₁ started =>
  obtain ⟨f₁, slots₁⟩ := started
  obtain ⟨m₁, h⟩ := startJobs_withMailbox m hstart
  rw [hstart] at heq
  rw [h]
  dsimp only at heq ⊢
  split at heq
  · rename_i hover
    rw [if_pos hover]
    exact runWriting_withMailbox (closing_finishing ..).heedless m₁ heq
  · rename_i hnot
    rw [if_neg hnot]
    cases heq
    exact ⟨m₁, rfl⟩

theorem runChecked_withMailbox {progress : Progress Checked} (m : Mailbox)
    (heq : runChecked s cancelled (e, progress) = (e', standing)) :
    ∃ m', runChecked s cancelled (e.withMailbox m, progress) = (e'.withMailbox m', standing) := by
  cases progress with
  | waiting w =>
    cases heq
    exact ⟨m, rfl⟩
  | finished checked =>
    cases checked with
    | stopped epoch => exact runWriting_withMailbox (closing_concluding epoch).heedless m heq
    | ready epoch jobs => exact runFetching_withMailbox m heq

theorem resumeJobs_withMailbox (hslots : ∀ slot ∈ slots, ∀ a, Discreet (slot.2.next a))
    (m : Mailbox) (heq : resumeJobs s cancelled e f slots = (e', f', slots')) :
    ∃ m', resumeJobs s cancelled (e.withMailbox m) f slots = (e'.withMailbox m', f', slots') := by
  induction slots generalizing e f slots' m with
  | nil =>
    cases heq
    exact ⟨m, rfl⟩
  | cons slot rest ih =>
    obtain ⟨number, w⟩ := slot
    obtain ⟨hw, hrest⟩ := List.forall_mem_cons.1 hslots
    unfold resumeJobs at heq ⊢
    cases hresume : w.resume s.collaborators cancelled e with
    | mk e₁ progress =>
      obtain ⟨m₁, h⟩ := Wait.resume_withMailbox (fun a => (hw a).heedless) m hresume
      rw [hresume] at heq
      rw [h]
      cases progress with
      | finished result => exact ih hrest m₁ heq
      | waiting w' =>
        cases hjobs : resumeJobs s cancelled e₁ f rest with
        | mk e₂ resumed =>
          obtain ⟨f₂, slots₂⟩ := resumed
          dsimp only at heq ⊢
          rw [hjobs] at heq
          cases heq
          obtain ⟨m₂, h'⟩ := ih hrest m₁ hjobs
          rw [h']
          exact ⟨m₂, rfl⟩

theorem runEpoch_withMailbox (m : Mailbox)
    (heq : runEpoch s cancelled e trigger = (e', standing)) :
    ∃ m', runEpoch s cancelled (e.withMailbox m) trigger = (e'.withMailbox m', standing) := by
  unfold runEpoch at heq ⊢
  cases hadvance : advance s.collaborators cancelled e (checking s.policy trigger) with
  | mk e₁ progress =>
    obtain ⟨m₁, h⟩ := advance_withMailbox (discreet_checking s.policy trigger).heedless m hadvance
    rw [hadvance] at heq
    rw [h]
    exact runChecked_withMailbox m₁ heq

/-- **An epoch that comes in** does the same with another mailbox. -/
theorem beginEpoch_withMailbox {result : Except Failure Standing} (m : Mailbox)
    (heq : beginEpoch s cancelled e trigger = (e', result)) :
    ∃ m', beginEpoch s cancelled (e.withMailbox m) trigger = (e'.withMailbox m', result) := by
  unfold beginEpoch Orchestrator.accept at heq ⊢
  rw [show (e.withMailbox m).orchestrator.inFlight = e.orchestrator.inFlight from rfl]
  cases hinFlight : e.orchestrator.inFlight with
  | true =>
    simp only [hinFlight, if_true] at heq ⊢
    cases heq
    exact ⟨m, rfl⟩
  | false =>
    simp only [hinFlight, Bool.false_eq_true, if_false] at heq ⊢
    let accepted : Env σ := { e with orchestrator := { e.orchestrator with inFlight := true } }
    cases hrun : runEpoch s cancelled accepted trigger with
    | mk e₁ standing =>
      obtain ⟨m', h⟩ := runEpoch_withMailbox m hrun
      rw [show runEpoch s cancelled _ trigger = _ from hrun] at heq
      cases heq
      exact ⟨m', congrArg (fun x => (x.1, Except.ok x.2)) h⟩

/-- **An epoch under way** does the same with another mailbox. -/
theorem Stage.resume_withMailbox {stage : Stage} (hs : stage.Discreet) (m : Mailbox)
    (heq : stage.resume s cancelled e = (e', standing)) :
    ∃ m', stage.resume s cancelled (e.withMailbox m) = (e'.withMailbox m', standing) := by
  cases hs with
  | checking hw =>
    obtain ⟨m₁, h⟩ := Wait.resume_withMailbox (fun a => (hw a).heedless) m rfl
    simp only [Stage.resume] at heq ⊢
    rw [h]
    exact runChecked_withMailbox m₁ heq
  | @fetching epoch f slots hslots =>
    simp only [Stage.resume] at heq ⊢
    cases hresume : resumeJobs s cancelled e f slots with
    | mk e₁ resumed =>
      obtain ⟨f₁, slots₁⟩ := resumed
      obtain ⟨m₁, h⟩ := resumeJobs_withMailbox hslots m hresume
      rw [hresume] at heq
      rw [h]
      exact runFetching_withMailbox m₁ heq
  | writing hw =>
    obtain ⟨m₁, h⟩ := Wait.resume_withMailbox (fun a => (hw a).heedless) m rfl
    simp only [Stage.resume] at heq ⊢
    rw [h]
    exact ⟨m₁, runConcluding_withMailbox m₁ heq⟩

end

/-! ## Epochs that come and go -/

namespace Scene

variable {s : Setup σ} {c c' c'' d d' : Scene σ} {deed : Deed}

/-- The same with another mailbox. -/
def withMailbox (c : Scene σ) (m : Mailbox) : Scene σ := { c with env := c.env.withMailbox m }

/-- Somebody has changed the mailbox. -/
theorem step_withMailbox (c : Scene σ) (m : Mailbox) : c.Step s .elsewhere (c.withMailbox m) :=
  .elsewhere (c.env.withMailbox m) rfl rfl

/-- Whatever happens but elsewhere can happen in one way only. -/
theorem Step.unique (hdeed : deed ≠ .elsewhere) (hs : c.Step s deed c') (hs' : c.Step s deed c'') :
    c' = c'' := by
  cases hs with
  | elsewhere => exact absurd rfl hdeed
  | shutdown | arrival | turn =>
    cases hs'
    rfl

theorem arrive_withMailbox (c : Scene σ) (entry : Entry) (m : Mailbox) :
    ∃ m', (c.withMailbox m).arrive s entry = (c.arrive s entry).withMailbox m' := by
  have hstopped : (c.withMailbox m).stopped = c.stopped := rfl
  cases heeded : entry.isHeeded c.stopped with
  | false => exact ⟨m, by rw [arrive_ignored heeded, arrive_ignored (hstopped ▸ heeded)]; rfl⟩
  | true =>
    cases hbegin : beginEpoch s.recorded c.stopped c.env entry.trigger with
    | mk e' standing =>
      obtain ⟨m', h⟩ := beginEpoch_withMailbox m hbegin
      exact ⟨m', by rw [arrive_heeded heeded hbegin, arrive_heeded (hstopped ▸ heeded) h]; rfl⟩

theorem turn_withMailbox (hc : c.Orderly s) (n : Nat) (m : Mailbox) :
    ∃ m', (c.withMailbox m).turn s n = (c.turn s n).withMailbox m' := by
  by_cases hadmits : ∃ standing, c.Admits n standing
  case neg =>
    have hnot : ∀ standing, ¬ c.Admits n standing := fun standing h => hadmits ⟨standing, h⟩
    have hnot' : ∀ standing, ¬ (c.withMailbox m).Admits n standing := hnot
    exact ⟨m, by rw [turn_of_not_admits hnot, turn_of_not_admits hnot']⟩
  obtain ⟨standing, hn⟩ := hadmits
  have hn' : (c.withMailbox m).Admits n standing := hn
  cases standing with
  | ended epoch => exact ⟨m, by rw [turn_ended hn, turn_ended hn']⟩
  | under stage =>
    obtain ⟨_, _, clock, -⟩ := hc.clock n _ hn
    cases hresume : stage.resume s.recorded c.stopped c.env with
    | mk e' standing =>
      obtain ⟨m', h⟩ := Stage.resume_withMailbox clock.discreet m hresume
      exact ⟨m', by rw [turn_of_admits hn hresume, turn_of_admits hn' h]; rfl⟩

/-- **Whatever happens with epochs** happens the same with another mailbox. -/
theorem Step.withMailbox (hs : c.Step s deed c') (hdeed : deed ≠ .elsewhere) (hc : c.Orderly s)
    (m : Mailbox) : ∃ m', (c.withMailbox m).Step s deed (c'.withMailbox m') := by
  cases hs with
  | elsewhere => exact absurd rfl hdeed
  | shutdown => exact ⟨m, .shutdown⟩
  | arrival entry =>
    obtain ⟨m', h⟩ := c.arrive_withMailbox (s := s) entry m
    exact ⟨m', h ▸ .arrival entry⟩
  | turn n =>
    obtain ⟨m', h⟩ := turn_withMailbox hc n m
    exact ⟨m', h ▸ .turn n⟩

/-- Two scenes in which the same has happened, but for the delivery of events: whatever the sinks are,
and whatever has become of a delivery or of the one who delivers. -/
inductive Parallel (s : Setup σ) : Scene σ → Scene σ → Prop
  | start (e : Env (Recorded σ)) (m : Mailbox) (stopped : Bool)
    (free : e.orchestrator.inFlight = false) (fresh : e.outside.marks = []) :
    Parallel s ⟨e, stopped, [], []⟩ ⟨e.withMailbox m, stopped, [], []⟩
  /-- Elsewhere the same happens, but anything may happen to either mailbox. -/
  | elsewhere {c d : Scene σ} (parallel : Parallel s c d) (e : Env (Recorded σ)) (m : Mailbox)
    (inFlight_eq : e.orchestrator.inFlight = c.env.orchestrator.inFlight)
    (marks_eq : e.outside.marks = c.env.outside.marks) :
    Parallel s { c with env := e } { d with env := e.withMailbox m }
  | step {c c' d d' : Scene σ} {deed : Deed} (parallel : Parallel s c d) (hdeed : deed ≠ .elsewhere)
    (hs : c.Step s deed c') (hs' : d.Step s deed d') : Parallel s c' d'

theorem Parallel.reached (h : Parallel s c d) : c.Reached s := by
  induction h with
  | start e m stopped free fresh => exact .start e stopped free fresh
  | elsewhere _ e m inFlight_eq marks_eq ih => exact ih.step (.elsewhere e inFlight_eq marks_eq)
  | step _ _ hs _ ih => exact ih.step hs

/-- **The delivery of events makes no difference** to anything but the mailbox. -/
theorem Parallel.withMailbox (h : Parallel s c d) : ∃ m, d = c.withMailbox m := by
  induction h with
  | start e m => exact ⟨m, rfl⟩
  | elsewhere _ e m _ _ ih =>
    obtain ⟨m₀, rfl⟩ := ih
    exact ⟨m, rfl⟩
  | step parallel hdeed hs hs' ih =>
    obtain ⟨m, rfl⟩ := ih
    obtain ⟨m', h⟩ := hs.withMailbox hdeed parallel.reached.orderly m
    exact ⟨m', hs'.unique hdeed h⟩

end Scene

end ContentSync.Engine
