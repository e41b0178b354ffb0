import ContentSync.Proofs.Engine.Limits
import ContentSync.Proofs.Engine.Reporting

/-!
# The upshot of a turn

When an epoch is let in or gone on with, it is over afterwards, or it waits. It waits only for what it
has waited for before or has begun to wait for in this turn. When it is over the orchestrator is idle
and free, keeps it as the last epoch, and its event is in the queue.

* `Env.Calm` — no time passes, and nothing is put into the queue;
* `Program.Discreet`, `Closing` — programs that announce nothing, and those that announce an epoch at
  the end;
* `advance_fresh`, `advance_closes` — what becomes of such programs;
* `Upshot` / `runEpoch_upshot`, `Stage.resume_upshot` — what becomes of an epoch in a turn;
* `OnClock.discreet` — an epoch on the clock announces nothing before it is over.
-/

set_option autoImplicit false

namespace ContentSync

/-- An epoch has been concluded. -/
structure Orchestrator.Concluded (before after : Orchestrator) (epoch : Epoch) : Prop where
  phase_eq : after.phase = .idle
  inFlight_eq : after.inFlight = false
  last_eq : after.last = some epoch
  mailbox_eq : after.mailbox = (before.mailbox.emit (Event.ofEpoch epoch)).2

namespace Engine

open Program

variable {σ α β : Type} {k : Collaborators σ} {cancelled : Bool} {e e₁ e' : Env σ}

/-! ## Requests -/

namespace Env

/-- No time passes, and nothing is put into the queue. -/
structure Calm (e e' : Env σ) : Prop where
  now_eq : e'.now = e.now
  round_eq : e'.round = e.round
  mailbox_eq : e'.orchestrator.mailbox = e.orchestrator.mailbox

theorem Calm.refl (e : Env σ) : e.Calm e := ⟨rfl, rfl, rfl⟩

theorem Calm.trans (h : e.Calm e₁) (h' : e₁.Calm e') : e.Calm e' :=
  ⟨h'.now_eq.trans h.now_eq, h'.round_eq.trans h.round_eq, h'.mailbox_eq.trans h.mailbox_eq⟩

theorem Calm.symm (h : e.Calm e') : e'.Calm e :=
  ⟨h.now_eq.symm, h.round_eq.symm, h.mailbox_eq.symm⟩

theorem Calm.concluded {after : Orchestrator} {epoch : Epoch} (h : e.Calm e₁)
    (hc : e₁.orchestrator.Concluded after epoch) : e.orchestrator.Concluded after epoch := by
  have hmailbox := hc.mailbox_eq
  rw [h.mailbox_eq] at hmailbox
  exact { hc with mailbox_eq := hmailbox }

theorem calm_publish (shown : Phase) : e.Calm (e.publish shown) := ⟨rfl, rfl, rfl⟩

theorem calm_start (c : Call) : e.Calm (e.start k c).2 := ⟨rfl, rfl, rfl⟩

theorem calm_answer (c : Call) (course : Course) : e.Calm (e.answer k c course).1 := by
  unfold Env.answer
  dsimp only
  split <;> exact ⟨rfl, rfl, rfl⟩

theorem calm_conclude (c : Call) (course : Course) (late : Bool) :
    e.Calm (e.conclude k c course late).1 := by
  unfold Env.conclude
  split
  · exact ⟨rfl, rfl, rfl⟩
  · exact calm_answer c course

theorem calm_openUnlimited (c : Call) : e.Calm (e.openUnlimited k c).1 := by
  unfold Env.openUnlimited
  dsimp only
  split
  · exact (calm_start c).trans (calm_answer ..)
  · exact calm_start c

theorem calm_openLimited (c : Call) (limit : Nat) : e.Calm (e.openLimited k c limit).1 := by
  unfold Env.openLimited
  dsimp only
  split
  · exact (calm_start c).trans (calm_conclude ..)
  · exact calm_start c

theorem calm_callLimited (c : Call) (limit : Nat) : e.Calm (e.callLimited k c limit).1 := by
  unfold Env.callLimited
  split
  · split <;> exact .refl e
  · exact calm_openLimited c limit

/-- **Only an announcement puts something into the queue.** -/
theorem calm_respond (k : Collaborators σ) (cancelled : Bool) (e : Env σ) {r : Request}
    (hr : r.event? = none) : e.Calm (e.respond k cancelled r).1 := by
  cases r with
  | announce => cases hr
  | publish | isCancelled | clock | remember | compute => exact ⟨rfl, rfl, rfl⟩
  | wait c =>
    simp only [Env.respond, Env.callUnlimited]
    split
    · exact .refl e
    · exact calm_openUnlimited c
  | call c limit => exact calm_callLimited c limit.milliseconds
  | attempt c limit =>
    simp only [Env.respond]
    split
    · exact .refl e
    · exact calm_callLimited c limit.milliseconds
  | pause length =>
    simp only [Env.respond]
    split
    · exact .refl e
    · split <;> exact .refl e

theorem calm_resume (k : Collaborators σ) (cancelled : Bool) (e : Env σ) (r : Request) (h : Hold) :
    e.Calm (e.resume k cancelled r h).1 := by
  cases r with
  | publish | isCancelled | clock | announce | remember => exact .refl e
  | wait c =>
    cases h with
    | opening => exact calm_openUnlimited c
    | underWay course => exact calm_answer c course
    | pausing | computing => exact .refl e
  | call c limit =>
    cases h with
    | opening => exact calm_openLimited c limit.milliseconds
    | underWay course _ late => exact calm_conclude c course late
    | pausing | computing => exact .refl e
  | attempt c limit =>
    cases h with
    | opening =>
      simp only [Env.resume]
      split
      · exact .refl e
      · exact calm_openLimited c limit.milliseconds
    | underWay course _ late =>
      simp only [Env.resume]
      split
      · exact ⟨rfl, rfl, rfl⟩
      · exact calm_conclude c course late
    | pausing | computing => exact .refl e
  | pause | compute => cases h <;> exact .refl e

theorem calm_of_respond {r : Request} {reply : Reply r.Answer} (hr : r.event? = none)
    (heq : e.respond k cancelled r = (e', reply)) : e.Calm e' := by
  have h := calm_respond k cancelled e hr
  rwa [heq] at h

theorem calm_of_resume {r : Request} {h : Hold} {reply : Reply r.Answer}
    (heq : e.resume k cancelled r h = (e', reply)) : e.Calm e' := by
  have hcalm := calm_resume k cancelled e r h
  rwa [heq] at hcalm

end Env

/-! ## Programs -/

/-- A program that announces nothing. -/
def Discreet (q : Program α) : Prop := ∀ h r, q.Asks h r → r.event? = none

theorem Discreet.head {r : Request} {next : r.Answer → Program α}
    (hq : Discreet (.ask r next)) : r.event? = none :=
  hq [] r (asks_ask.2 (.inl ⟨rfl, rfl⟩))

theorem Discreet.next {r : Request} {next : r.Answer → Program α}
    (hq : Discreet (.ask r next)) (a : r.Answer) : Discreet (next a) :=
  fun h r' hr => hq _ r' (asks_ask.2 (.inr ⟨a, h, rfl, hr⟩))

theorem discreet_checking (p : SyncPolicy) (trigger : Trigger) : Discreet (checking p trigger) :=
  fun _ _ hr => event?_of_asks_checking hr

theorem discreet_fetchOne (p : SyncPolicy) (job : Job) : Discreet (fetchOne p job) := by
  intro h r hr
  obtain ⟨rfl | ⟨length, rfl⟩, -⟩ := asks_fetchOne hr <;> rfl

/-- A program that announces an epoch as the last thing that it does. -/
inductive Closing : Program Epoch → Prop
  | announcing (finished : Epoch) : Closing (announcing finished)
  | ask {r : Request} {next : r.Answer → Program Epoch} (discreet : r.event? = none)
    (hnext : ∀ a, Closing (next a)) : Closing (.ask r next)

theorem Discreet.bind {q : Program α} {f : α → Program Epoch} (hq : Discreet q)
    (hf : ∀ a, Closing (f a)) : Closing (q >>= f) := by
  induction q with
  | done a => exact hf a
  | ask r next ih => exact .ask hq.head fun a => ih a (hq.next a)

theorem closing_concluding (epoch : Epoch) : Closing (concluding epoch) := by
  refine .ask rfl fun now => ?_
  change Closing (if (epoch.finalize now).outcome = some .failure then _ else _)
  split
  · exact .ask rfl fun _ => .announcing _
  · exact .announcing _

theorem closing_finishing (p : SyncPolicy) (epoch : Epoch) (results : List Fetched) :
    Closing (writing p epoch results >>= concluding) :=
  Discreet.bind (fun _ _ hr => event?_of_asks_writing hr) closing_concluding

/-- What a program waits for. -/
def Wait.pending (w : Wait α) : Request × Hold := (w.request, w.hold)

/-- A call that is waited for has time left. -/
def HasTime (now : Nat) (x : Request × Hold) : Prop :=
  ∀ c, x.1.call? = some c → ∀ course due late, x.2 = .underWay course (some due) late → now < due

/-- A program waits for something old that has time left, or it has begun to wait for something. -/
def Fresh (old : List (Request × Hold)) (e : Env σ) (x : Request × Hold) : Prop :=
  (x ∈ old ∧ HasTime e.now x) ∨ Begun e.now e.round x

theorem Fresh.mono {old old' : List (Request × Hold)} {x : Request × Hold} (hold : old ⊆ old')
    (hx : Fresh old e x) : Fresh old' e x :=
  hx.imp_left fun h => ⟨hold h.1, h.2⟩

theorem Fresh.of_calm {old : List (Request × Hold)} {x : Request × Hold} (h : e.Calm e₁)
    (hx : Fresh old e₁ x) : Fresh old e x := by
  unfold Fresh at hx ⊢
  rwa [h.now_eq, h.round_eq] at hx

/-- What becomes of a program that announces nothing. -/
inductive Progress.Fresh (old : List (Request × Hold)) (e : Env σ) : Progress α → Prop
  | finished (a : α) : Fresh old e (.finished a)
  | waiting {w : Wait α} (fresh : Engine.Fresh old e w.pending)
    (discreet : ∀ a, Discreet (w.next a)) : Fresh old e (.waiting w)

theorem Progress.Fresh.of_calm {old : List (Request × Hold)} {progress : Progress α}
    (h : e.Calm e₁) (hp : progress.Fresh old e₁) : progress.Fresh old e := by
  cases hp with
  | finished a => exact .finished a
  | waiting fresh discreet => exact .waiting (fresh.of_calm h) discreet

/-- **A program that announces nothing waits for what it has begun to wait for.** -/
theorem advance_fresh (old : List (Request × Hold)) {q : Program α} {progress : Progress α}
    (hq : Discreet q) (heq : advance k cancelled e q = (e', progress)) :
    e.Calm e' ∧ progress.Fresh old e := by
  induction q generalizing e with
  | done a =>
    cases heq
    exact ⟨.refl _, .finished a⟩
  | ask r next ih =>
    unfold advance at heq
    cases hres : e.respond k cancelled r with
    | mk e₁ reply =>
      have hcalm := Env.calm_of_respond hq.head hres
      rw [hres] at heq
      cases reply with
      | answer a =>
        obtain ⟨hcalm', hfresh⟩ := ih a (hq.next a) heq
        exact ⟨hcalm.trans hcalm', hfresh.of_calm hcalm⟩
      | hold h =>
        cases heq
        exact ⟨hcalm.trans ⟨rfl, rfl, rfl⟩, .waiting (.inr (Env.begun_of_respond hres)) hq.next⟩

/-- What becomes of a program that announces an epoch at the end. -/
inductive Progress.Closes (old : List (Request × Hold)) (e e' : Env σ) : Progress Epoch → Prop
  | finished {epoch : Epoch} (concluded : e.orchestrator.Concluded e'.release.orchestrator epoch) :
    Closes old e e' (.finished epoch)
  | waiting {w : Wait Epoch} (calm : e.Calm e') (fresh : Engine.Fresh old e w.pending)
    (closing : ∀ a, Closing (w.next a)) : Closes old e e' (.waiting w)

theorem Progress.Closes.of_calm {old : List (Request × Hold)} {progress : Progress Epoch}
    (h : e.Calm e₁) (hp : progress.Closes old e₁ e') : progress.Closes old e e' := by
  cases hp with
  | finished concluded => exact .finished (h.concluded concluded)
  | waiting calm fresh closing => exact .waiting (h.trans calm) (fresh.of_calm h) closing

/-- **A program that announces an epoch leaves the orchestrator idle.** -/
theorem advance_closes {old : List (Request × Hold)} {q : Program Epoch} {progress : Progress Epoch}
    (hq : Closing q) (heq : advance k cancelled e q = (e', progress)) :
    progress.Closes old e e' := by
  induction hq generalizing e with
  | announcing finished =>
    cases heq
    exact .finished ⟨rfl, rfl, rfl, rfl⟩
  | @ask r next discreet hnext ih =>
    unfold advance at heq
    cases hres : e.respond k cancelled r with
    | mk e₁ reply =>
      have hcalm := Env.calm_of_respond discreet hres
      rw [hres] at heq
      cases reply with
      | answer a => exact (ih a heq).of_calm hcalm
      | hold h =>
        cases heq
        exact .waiting (hcalm.trans ⟨rfl, rfl, rfl⟩) (.inr (Env.begun_of_respond hres)) hnext

/-- What is gone on with is something new, or it was not under way. -/
theorem fresh_of_resume {r : Request} {h h' : Hold}
    (heq : e.resume k cancelled r h = (e', .hold h')) : Fresh [(r, h)] e (r, h') := by
  obtain rfl | hbegun := Env.begun_of_resume heq
  · exact .inl ⟨List.mem_cons_self, fun c hc course due late hhold =>
      absurd hhold (Env.hold_ne_of_resume hc heq _)⟩
  · exact .inr hbegun

/-- What is not gone on with has time left. -/
theorem Wait.fresh_of_not_isNow {w : Wait α} (hnot : ¬ (w.prospect cancelled e).isNow = true) :
    Fresh [w.pending] e w.pending := by
  refine .inl ⟨List.mem_cons_self, fun c hc course due late hhold => ?_⟩
  exact Nat.lt_of_not_le fun hdue => hnot (Wait.isNow_of_due hhold hdue)

/-- What a program that goes on waits for. -/
theorem Wait.resume_fresh {w : Wait α} {progress : Progress α} (hw : ∀ a, Discreet (w.next a))
    (heq : w.resume k cancelled e = (e', progress)) :
    e.Calm e' ∧ progress.Fresh [w.pending] e := by
  unfold Wait.resume at heq
  split at heq
  · cases hres : e.resume k cancelled w.request w.hold with
    | mk e₁ reply =>
      have hcalm := Env.calm_of_resume hres
      rw [hres] at heq
      cases reply with
      | answer a =>
        obtain ⟨hcalm', hfresh⟩ := advance_fresh _ (hw a) heq
        exact ⟨hcalm.trans hcalm', hfresh.of_calm hcalm⟩
      | hold h =>
        cases heq
        exact ⟨hcalm.trans ⟨rfl, rfl, rfl⟩, .waiting (fresh_of_resume hres) hw⟩
  · rename_i hnot
    cases heq
    exact ⟨.refl _, .waiting (Wait.fresh_of_not_isNow hnot) hw⟩

theorem Wait.resume_closes {w : Wait Epoch} {progress : Progress Epoch}
    (hw : ∀ a, Closing (w.next a)) (heq : w.resume k cancelled e = (e', progress)) :
    progress.Closes [w.pending] e e' := by
  unfold Wait.resume at heq
  split at heq
  · cases hres : e.resume k cancelled w.request w.hold with
    | mk e₁ reply =>
      have hcalm := Env.calm_of_resume hres
      rw [hres] at heq
      cases reply with
      | answer a => exact (advance_closes (hw a) heq).of_calm hcalm
      | hold h =>
        cases heq
        exact .waiting (hcalm.trans ⟨rfl, rfl, rfl⟩) (fresh_of_resume hres) hw
  · rename_i hnot
    cases heq
    exact .waiting (.refl _) (Wait.fresh_of_not_isNow hnot) hw

/-! ## Epochs -/

/-- What an epoch under way waits for. -/
def Stage.pending : Stage → List (Request × Hold)
  | checking w => [w.pending]
  | fetching _ _ slots => slots.map fun slot => slot.2.pending
  | writing w => [w.pending]

/-- An epoch under way announces nothing before it is over. -/
inductive Stage.Discreet : Stage → Prop
  | checking {w : Wait Checked} (hw : ∀ a, Engine.Discreet (w.next a)) : Discreet (.checking w)
  | fetching {epoch : Epoch} {f : Fetching} {slots : List (Nat × Wait Fetched)}
    (hslots : ∀ slot ∈ slots, ∀ a, Engine.Discreet (slot.2.next a)) :
    Discreet (.fetching epoch f slots)
  | writing {w : Wait Epoch} (hw : ∀ a, Closing (w.next a)) : Discreet (.writing w)

/-- What becomes of an epoch in a turn. -/
inductive Upshot (old : List (Request × Hold)) (e e' : Env σ) : Standing → Prop
  | ended {epoch : Epoch} (concluded : e.orchestrator.Concluded e'.orchestrator epoch) :
    Upshot old e e' (.ended epoch)
  | under {stage : Stage} (calm : e.Calm e') (fresh : ∀ x ∈ stage.pending, Fresh old e x)
    (discreet : stage.Discreet) : Upshot old e e' (.under stage)

/-- The jobs of an epoch wait for what they have waited for or begun to wait for. -/
def SlotsFresh (old : List (Request × Hold)) (e : Env σ) (slots : List (Nat × Wait Fetched)) : Prop :=
  ∀ slot ∈ slots, Fresh old e slot.2.pending ∧ ∀ a, Discreet (slot.2.next a)

section

variable {s : Setup σ} {trigger : Trigger} {old : List (Request × Hold)} {epoch : Epoch}
  {f f' : Fetching} {slots slots' : List (Nat × Wait Fetched)} {standing : Standing}

theorem Upshot.of_calm (h : e.Calm e₁) (hu : Upshot old e₁ e' standing) :
    Upshot old e e' standing := by
  cases hu with
  | ended concluded => exact .ended (h.concluded concluded)
  | under calm fresh discreet =>
    exact .under (h.trans calm) (fun x hx => (fresh x hx).of_calm h) discreet

theorem SlotsFresh.of_calm (h : e.Calm e₁) (hs : SlotsFresh old e₁ slots) :
    SlotsFresh old e slots :=
  fun slot hslot => ⟨(hs slot hslot).1.of_calm h, (hs slot hslot).2⟩

theorem SlotsFresh.under (h : e.Calm e') (hs : SlotsFresh old e slots) :
    Upshot old e e' (.under (.fetching epoch f slots)) := by
  refine .under h (fun x hx => ?_) (.fetching fun slot hslot => (hs slot hslot).2)
  obtain ⟨slot, hslot, rfl⟩ := List.mem_map.1 hx
  exact (hs slot hslot).1

theorem runConcluding_upshot {progress : Progress Epoch} (hp : progress.Closes old e e₁)
    (heq : runConcluding (e₁, progress) = (e', standing)) : Upshot old e e' standing := by
  cases hp with
  | finished concluded =>
    cases heq
    exact .ended concluded
  | waiting calm fresh closing =>
    cases heq
    exact .under calm (by simpa [Stage.pending] using fresh) (.writing closing)

theorem runWriting_upshot {q : Program Epoch} (hq : Closing q)
    (heq : runWriting s cancelled e q = (e', standing)) : Upshot old e e' standing :=
  runConcluding_upshot (advance_closes hq rfl) heq

/-- Jobs that are started wait for what they have begun to wait for. -/
theorem startJobs_fresh (hs : SlotsFresh old e slots)
    (heq : startJobs s cancelled e f slots = (e', f', slots')) :
    e.Calm e' ∧ SlotsFresh old e slots' := by
  fun_induction startJobs s cancelled e f slots with
  | case1 =>
    cases heq
    exact ⟨.refl _, hs⟩
  | case2 e f slots number job g hnext _ e₁ result hadvance _ ih =>
    obtain ⟨hcalm, -⟩ := advance_fresh old (discreet_fetchOne s.policy job) hadvance
    have hcalm := hcalm.trans (Env.calm_publish (g.finish number result).phase)
    obtain ⟨hcalm', hs'⟩ := ih (hs.of_calm hcalm.symm) heq
    exact ⟨hcalm.trans hcalm', hs'.of_calm hcalm⟩
  | case3 e f slots number job g hnext _ e₁ w hadvance ih =>
    obtain ⟨hcalm, hfresh⟩ := advance_fresh old (discreet_fetchOne s.policy job) hadvance
    cases hfresh with
    | waiting fresh discreet =>
      have hs : SlotsFresh old e (slots ++ [(number, w)]) :=
        List.forall_mem_append.2 ⟨hs, List.forall_mem_singleton.2 ⟨fresh, discreet⟩⟩
      obtain ⟨hcalm', hs'⟩ := ih (hs.of_calm hcalm.symm) heq
      exact ⟨hcalm.trans hcalm', hs'.of_calm hcalm⟩

theorem runFetching_upshot (hs : SlotsFresh old e slots)
    (heq : runFetching s cancelled e epoch f slots = (e', standing)) :
    Upshot old e e' standing := by
  unfold runFetching at heq
  cases hstart : startJobs s cancelled e f slots with
  | mk e₁ started =>
  obtain ⟨f₁, slots₁⟩ := started
  rw [hstart] at heq
  obtain ⟨hcalm, hs₁⟩ := startJobs_fresh hs hstart
  dsimp only at heq
  split at heq
  · exact (runWriting_upshot (closing_finishing ..) heq).of_calm hcalm
  · cases heq
    exact hs₁.under hcalm

theorem runChecked_upshot {progress : Progress Checked} (hcalm : e.Calm e₁)
    (hp : progress.Fresh old e) (heq : runChecked s cancelled (e₁, progress) = (e', standing)) :
    Upshot old e e' standing := by
  cases hp with
  | waiting fresh discreet =>
    cases heq
    exact .under hcalm (by simpa [Stage.pending] using fresh) (.checking discreet)
  | finished checked =>
    cases checked with
    | stopped epoch => exact (runWriting_upshot (closing_concluding epoch) heq).of_calm hcalm
    | ready epoch jobs =>
      have hnone : ∀ e : Env σ, SlotsFresh old e [] := fun _ _ h => absurd h List.not_mem_nil
      exact ((runFetching_upshot (hnone _) heq).of_calm (Env.calm_publish _)).of_calm hcalm

/-- Jobs that go on wait for what they have waited for or begun to wait for. -/
theorem resumeJobs_fresh (hslots : ∀ slot ∈ slots, ∀ a, Discreet (slot.2.next a))
    (hold : slots.map (fun slot => slot.2.pending) ⊆ old)
    (heq : resumeJobs s cancelled e f slots = (e', f', slots')) :
    e.Calm e' ∧ SlotsFresh old e slots' := by
  induction slots generalizing e f slots' with
  | nil =>
    cases heq
    exact ⟨.refl _, fun _ h => absurd h List.not_mem_nil⟩
  | cons slot rest ih =>
    obtain ⟨number, w⟩ := slot
    obtain ⟨hw, hrest⟩ := List.forall_mem_cons.1 hslots
    obtain ⟨hhead, htail⟩ := List.cons_subset.1 hold
    unfold resumeJobs at heq
    cases hresume : w.resume s.collaborators cancelled e with
    | mk e₁ progress =>
      rw [hresume] at heq
      obtain ⟨hcalm, hfresh⟩ := Wait.resume_fresh hw hresume
      cases hfresh with
      | finished result =>
        have hcalm := hcalm.trans (Env.calm_publish (f.finish number result).phase)
        obtain ⟨hcalm', hs⟩ := ih hrest htail heq
        exact ⟨hcalm.trans hcalm', hs.of_calm hcalm⟩
      | @waiting w' fresh discreet =>
        cases hjobs : resumeJobs s cancelled e₁ f rest with
        | mk e₂ resumed =>
          obtain ⟨f₂, slots₂⟩ := resumed
          dsimp only at heq
          rw [hjobs] at heq
          cases heq
          obtain ⟨hcalm', hs⟩ := ih hrest htail hjobs
          have hfresh : Fresh old e w'.pending :=
            fresh.mono (List.cons_subset.2 ⟨hhead, List.nil_subset _⟩)
          exact ⟨hcalm.trans hcalm', List.forall_mem_cons.2 ⟨⟨hfresh, discreet⟩, hs.of_calm hcalm⟩⟩

/-- **An epoch that is let in** waits for what it has begun to wait for, or it is over. -/
theorem runEpoch_upshot (heq : runEpoch s cancelled e trigger = (e', standing)) :
    Upshot [] e e' standing := by
  unfold runEpoch at heq
  obtain ⟨hcalm, hfresh⟩ := advance_fresh [] (discreet_checking s.policy trigger) rfl
  exact runChecked_upshot hcalm hfresh heq

/-- **An epoch that is gone on with** waits for what it has waited for or begun to wait for, or it is
over. -/
theorem Stage.resume_upshot {stage : Stage} (hs : stage.Discreet)
    (heq : stage.resume s cancelled e = (e', standing)) : Upshot stage.pending e e' standing := by
  cases hs with
  | checking hw =>
    obtain ⟨hcalm, hfresh⟩ := Wait.resume_fresh hw rfl
    exact runChecked_upshot hcalm hfresh heq
  | @fetching epoch f slots hslots =>
    cases hresume : resumeJobs s cancelled e f slots with
    | mk e₁ resumed =>
      obtain ⟨f₁, slots₁⟩ := resumed
      simp only [Stage.resume, hresume] at heq
      obtain ⟨hcalm, hfresh⟩ := resumeJobs_fresh hslots (List.Subset.refl _) hresume
      exact (runFetching_upshot (hfresh.of_calm hcalm.symm) heq).of_calm hcalm
  | writing hw => exact runConcluding_upshot (Wait.resume_closes hw rfl) heq

/-- **An epoch on the clock announces nothing before it is over.** -/
theorem OnClock.discreet {stage : Stage} (clock : OnClock s trigger cancelled (.under stage)) :
    stage.Discreet := by
  generalize hstanding : Standing.under stage = standing at clock
  induction clock generalizing stage with
  | begun begin_eq =>
    cases hstanding
    cases runEpoch_upshot begin_eq with
    | under _ _ discreet => exact discreet
  | resumed _ _ resume_eq ih =>
    cases hstanding
    cases Stage.resume_upshot (ih rfl) resume_eq with
    | under _ _ discreet => exact discreet

end

end Engine

end ContentSync
