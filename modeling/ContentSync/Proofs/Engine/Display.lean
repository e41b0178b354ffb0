import ContentSync.Proofs.Engine.Phases
import ContentSync.Proofs.Engine.Traffic
import ContentSync.Proofs.Engine.Upshot
import ContentSync.Proofs.Engine.Versions
import Mathlib.Data.Nat.Find

/-!
# What is shown while epochs come and go

Whoever looks at the orchestrator sees the phase that was shown last and the epoch that was kept last.
Only epochs show phases and are kept, so between the turns of epochs what is seen tells of the one that
was let in last.

* `Orchestrator.after`, `Env.orchestrator_respond` — what a request does to the orchestrator;
* `Env.Moves.phase_eq` — the phase after some moments is the last one of those they show;
* `Aloof.advance`, `aloof_lookup` — lookups leave the orchestrator as it is;
* `Scene.Watched` — the scenes in which nobody but epochs shows anything;
* `Scene.Watched.beginLookup`, `Scene.Watched.resumeLookup` — in them there may be lookups at any time;
* `Scene.Newest` — the epoch that was let in last;
* `Standing.Displayed`, `Scene.Displays` — what can be seen of it;
* `Scene.Watched.displays` — it is seen whatever happens;
* `Scene.Displays.inFlight_iff`, `Scene.Displays.last_of_idle` — what is seen while epochs run, and while
  none does;
* `Scene.Seen` / `Scene.Displays.seen` — both, and the phases of every epoch.
-/

set_option autoImplicit false

namespace ContentSync

/-- What a request does to the orchestrator. -/
def Orchestrator.after (o : Orchestrator) : Request → Orchestrator
  | .publish phase => o.publish phase
  | .announce event => (o.announce event).2
  | .remember epoch => o.remember epoch
  | _ => o

theorem Orchestrator.phase_after (o : Orchestrator) (r : Request) :
    (o.after r).phase = r.phase?.getD o.phase := by
  cases r <;> rfl

/-- What is shown while the orchestrator is idle. -/
theorem Orchestrator.status_idle {o : Orchestrator} (hphase : o.phase = .idle)
    (hfree : o.inFlight = false) : o.status = .ofMembers [("state", Phase.idle.json),
      ("running", .bool false), ("lastEpoch", .optional Epoch.summary o.last)] := by
  rw [status, hphase, hfree]

namespace Engine

variable {σ α : Type} {k : Collaborators σ} {cancelled : Bool} {e e₁ e' : Env σ}

/-! ## What requests do to the orchestrator -/

namespace Env

theorem orchestrator_answer (c : Call) (course : Course) :
    (e.answer k c course).1.orchestrator = e.orchestrator := by
  unfold Env.answer
  dsimp only
  split <;> rfl

theorem orchestrator_conclude (c : Call) (course : Course) (late : Bool) :
    (e.conclude k c course late).1.orchestrator = e.orchestrator := by
  unfold Env.conclude
  split
  · rfl
  · exact orchestrator_answer c course

theorem orchestrator_openUnlimited (c : Call) :
    (e.openUnlimited k c).1.orchestrator = e.orchestrator := by
  unfold Env.openUnlimited
  dsimp only
  split
  · exact orchestrator_answer ..
  · rfl

theorem orchestrator_openLimited (c : Call) (limit : Nat) :
    (e.openLimited k c limit).1.orchestrator = e.orchestrator := by
  unfold Env.openLimited
  dsimp only
  split
  · exact orchestrator_conclude ..
  · rfl

theorem orchestrator_callLimited (c : Call) (limit : Nat) :
    (e.callLimited k c limit).1.orchestrator = e.orchestrator := by
  unfold Env.callLimited
  split
  · split <;> rfl
  · exact orchestrator_openLimited c limit

/-- **What is done with collaborators is not done to the orchestrator.** -/
theorem orchestrator_respond (k : Collaborators σ) (cancelled : Bool) (e : Env σ) (r : Request) :
    (e.respond k cancelled r).1.orchestrator = e.orchestrator.after r := by
  cases r with
  | publish | isCancelled | clock | announce | remember | compute => rfl
  | wait c =>
    simp only [Env.respond, Env.callUnlimited]
    split
    · rfl
    · exact orchestrator_openUnlimited c
  | call c limit => exact orchestrator_callLimited c limit.milliseconds
  | attempt c limit =>
    simp only [Env.respond]
    split
    · rfl
    · exact orchestrator_callLimited c limit.milliseconds
  | pause length =>
    simp only [Env.respond]
    split
    · rfl
    · split <;> rfl

theorem orchestrator_resume (k : Collaborators σ) (cancelled : Bool) (e : Env σ) (r : Request)
    (h : Hold) : (e.resume k cancelled r h).1.orchestrator = e.orchestrator := by
  cases r with
  | publish | isCancelled | clock | announce | remember => rfl
  | wait c =>
    cases h with
    | opening => exact orchestrator_openUnlimited c
    | underWay course => exact orchestrator_answer c course
    | pausing | computing => rfl
  | call c limit =>
    cases h with
    | opening => exact orchestrator_openLimited c limit.milliseconds
    | underWay course _ late => exact orchestrator_conclude c course late
    | pausing | computing => rfl
  | attempt c limit =>
    cases h with
    | opening =>
      simp only [Env.resume]
      split
      · rfl
      · exact orchestrator_openLimited c limit.milliseconds
    | underWay course _ late =>
      simp only [Env.resume]
      split
      · rfl
      · exact orchestrator_conclude c course late
    | pausing | computing => rfl
  | pause | compute => cases h <;> rfl

theorem phase_of_respond {r : Request} {reply : Reply r.Answer}
    (heq : e.respond k cancelled r = (e', reply)) :
    e'.orchestrator.phase = r.phase?.getD e.orchestrator.phase := by
  have h := orchestrator_respond k cancelled e r
  rw [heq] at h
  rw [h, Orchestrator.phase_after]

theorem phase_of_resume {r : Request} {h : Hold} {reply : Reply r.Answer}
    (heq : e.resume k cancelled r h = (e', reply)) :
    e'.orchestrator.phase = e.orchestrator.phase := by
  have hresume := orchestrator_resume k cancelled e r h
  rw [heq] at hresume
  rw [hresume]

/-- **The phase after some moments** is the last one of those they show. -/
theorem Moves.phase_eq {t : List Moment} (h : e.Moves k cancelled t e') :
    e'.orchestrator.phase = (phases t).getLast?.getD e.orchestrator.phase := by
  induction h with
  | refl | selected | progressed | released => rfl
  | trans _ _ ih ih' =>
    rw [ih', ih, phases_append, List.getLast?_append]
    cases (phases _).getLast? <;> rfl
  | @served e e' w r a respond_eq =>
    rw [phase_of_respond respond_eq]
    cases r <;> rfl
  | @held e e' w r h respond_eq =>
    refine (phase_of_respond respond_eq).trans ?_
    cases r <;> rfl
  | resumed resume_eq => exact phase_of_resume resume_eq
  | still resume_eq => exact (phase_of_resume resume_eq :)

end Env

/-! ## Lookups -/

/-- A program that asks nothing of the orchestrator. -/
def Aloof (q : Program α) : Prop := ∀ h r, q.Asks h r → ∀ o : Orchestrator, o.after r = o

/-- What is left of a program that asks nothing of the orchestrator asks nothing of it. -/
def Progress.Aloof (progress : Progress α) : Prop :=
  ∀ w, progress = .waiting w → ∀ a, Engine.Aloof (w.next a)

/-- **A program that asks nothing of the orchestrator leaves it as it is.** -/
theorem Aloof.advance {q : Program α} {progress : Progress α} (hq : Aloof q)
    (heq : advance k cancelled e q = (e', progress)) :
    e'.orchestrator = e.orchestrator ∧ progress.Aloof := by
  induction q generalizing e with
  | done a =>
    cases heq
    exact ⟨rfl, fun w hw => by cases hw⟩
  | ask r next ih =>
    have hnext : ∀ a, Aloof (next a) := fun a h r' hr =>
      hq _ r' (Program.asks_ask.2 (.inr ⟨a, h, rfl, hr⟩))
    have horchestrator := Env.orchestrator_respond k cancelled e r
    rw [hq [] r (Program.asks_ask.2 (.inl ⟨rfl, rfl⟩))] at horchestrator
    unfold Engine.advance at heq
    cases hres : e.respond k cancelled r with
    | mk e₁ reply =>
      rw [hres] at heq horchestrator
      cases reply with
      | answer a =>
        obtain ⟨h, hprogress⟩ := ih a (hnext a) heq
        exact ⟨h.trans horchestrator, hprogress⟩
      | hold hold =>
        cases heq
        refine ⟨horchestrator, ?_⟩
        rintro w ⟨⟩
        exact hnext

/-- So it is when the program has waited. -/
theorem Wait.resume_aloof {w : Wait α} {progress : Progress α} (hw : ∀ a, Aloof (w.next a))
    (heq : w.resume k cancelled e = (e', progress)) :
    e'.orchestrator = e.orchestrator ∧ progress.Aloof := by
  unfold Wait.resume at heq
  split at heq
  · have horchestrator := Env.orchestrator_resume k cancelled e w.request w.hold
    cases hres : e.resume k cancelled w.request w.hold with
    | mk e₁ reply =>
      rw [hres] at heq horchestrator
      cases reply with
      | answer a =>
        obtain ⟨h, hprogress⟩ := (hw a).advance heq
        exact ⟨h.trans horchestrator, hprogress⟩
      | hold h =>
        cases heq
        refine ⟨horchestrator, ?_⟩
        rintro w' ⟨⟩
        exact hw
  · cases heq
    refine ⟨rfl, ?_⟩
    rintro w' ⟨⟩
    exact hw

theorem aloof_lookup (lifetime : Duration) (raw : String) : Aloof (lookup lifetime raw) := by
  intro h r hr o
  obtain ⟨code, rfl | rfl | ⟨record, rfl⟩⟩ := asks_lookup hr <;> rfl

/-! ## Scenes that are watched -/

/-- What can be seen of the epoch that was let in last. -/
def Standing.Displayed (s : Setup σ) (stopped : Bool) (o : Orchestrator) : Standing → Prop
  | ended epoch => o.phase = .idle ∧ o.last = some epoch
  | under stage => ∃ trigger t, Run s.policy trigger t stage.situation ∧ stage.situation.AtRest ∧
      (wasCancelled t = true → stopped = true) ∧ (phases t).getLast? = some o.phase

theorem Standing.Displayed.mono {s : Setup σ} {stopped later : Bool} {o o' : Orchestrator}
    {standing : Standing} (h : standing.Displayed s stopped o)
    (hstopped : stopped = true → later = true) (hphase : o'.phase = o.phase)
    (hlast : o'.last = o.last) : standing.Displayed s later o' := by
  cases standing with
  | ended epoch =>
    obtain ⟨hidle, hkept⟩ := h
    exact ⟨hphase.trans hidle, hlast.trans hkept⟩
  | under stage =>
    obtain ⟨trigger, t, run, hrest, hcancelled, hshown⟩ := h
    exact ⟨trigger, t, run, hrest, hstopped ∘ hcancelled, hphase ▸ hshown⟩

/-- Nothing is shown where nothing happens but a cancellation. -/
theorem phases_eq_nil_of_subset {t : List Moment} (ht : t ⊆ [.cancelled]) : phases t = [] := by
  refine List.filterMap_eq_nil_iff.2 fun m hm => ?_
  rw [List.mem_singleton.1 (ht hm)]
  rfl

/-- **What can be seen of an epoch after its turn.** -/
theorem Comes.standing_displayed {s : Setup (Recorded σ)} {trigger : Trigger} {t : List Moment}
    {e e' : Env (Recorded σ)} {standing : Standing} {old : List (Request × Hold)}
    (hcomes : Comes s.policy trigger s.collaborators cancelled t e e' standing.situation)
    (hrest : standing.AtRest) (hupshot : Upshot old e e' standing)
    (hbefore : phases t = [] ∨ (phases t).getLast? = some e.orchestrator.phase) :
    standing.Displayed s cancelled e'.orchestrator := by
  cases hupshot with
  | ended concluded => exact ⟨concluded.phase_eq, concluded.last_eq⟩
  | under =>
    obtain ⟨u, run, hc, hmoves⟩ := hcomes
    obtain ⟨hshown, -⟩ := run.phases_atRest hrest
    refine ⟨trigger, t ++ u, run, hrest, fun h => hc ▸ h, ?_⟩
    rw [hmoves.phase_eq, phases_append, List.getLast?_append]
    rw [phases_append] at hshown
    cases hlast : (phases u).getLast? with
    | some phase => rfl
    | none =>
      rw [List.getLast?_eq_none_iff.1 hlast, List.append_nil] at hshown
      exact hbefore.resolve_left hshown

namespace Scene

/-- The scenes to which anything can lead while nobody but epochs shows phases or is kept as the last
epoch, from one in which the orchestrator is as it was made. -/
inductive Watched (s : Setup σ) : Scene σ → Prop
  | start (e : Env (Recorded σ)) (stopped : Bool) (sinks : List Sink)
    (fresh : e.outside.marks = []) (created : e.orchestrator = .create sinks) :
    Watched s ⟨e, stopped, [], []⟩
  | step {c c' : Scene σ} {deed : Deed} (watched : Watched s c) (hs : c.Step s deed c')
    (alone : deed = .elsewhere → c'.env.orchestrator.phase = c.env.orchestrator.phase ∧
      c'.env.orchestrator.last = c.env.orchestrator.last) : Watched s c'

/-- The epoch that was let in last, with the number of its trigger. -/
def Newest (c : Scene σ) (n : Nat) (standing : Standing) : Prop :=
  c.Admits n standing ∧ ∀ m other, c.Admits m other → m ≤ n

/-- What can be seen tells of the epoch that was let in last. -/
structure Displays (s : Setup σ) (c : Scene σ) : Prop where
  orderly : c.Orderly s
  newest : ∀ n standing, c.Newest n standing → standing.Displayed s c.stopped c.env.orchestrator
  fresh : (∀ n standing, ¬ c.Admits n standing) →
    c.env.orchestrator.phase = .idle ∧ c.env.orchestrator.last = none
  under : ∀ n stage, c.Admits n (.under stage) → c.Newest n (.under stage)

variable {s : Setup σ} {c c' : Scene σ} {n m : Nat} {standing other : Standing}

theorem Watched.reached (watched : c.Watched s) : c.Reached s := by
  induction watched with
  | start e stopped sinks fresh created => exact .start e stopped (by rw [created]; rfl) fresh
  | step _ hs _ ih => exact ih.step hs

/-- What those who are not on record see of a scene. -/
def unrecorded (c : Scene σ) : Env σ := { c.env with outside := c.env.outside.inner }

/-- The scene that somebody who is not on record leaves behind. -/
def leave (c : Scene σ) (e : Env σ) : Scene σ :=
  { c with env := { e with outside := ⟨e.outside, c.env.outside.marks⟩ } }

/-- Who leaves the orchestrator as it is leaves a scene that is watched as before. -/
theorem Watched.leave {e : Env σ} (watched : c.Watched s)
    (heq : e.orchestrator = c.unrecorded.orchestrator) : (c.leave e).Watched s := by
  have heq : e.orchestrator = c.env.orchestrator := heq
  have hs : c.Step s .elsewhere (c.leave e) := .elsewhere _ (by rw [heq]) rfl
  exact watched.step hs fun _ => ⟨congrArg Orchestrator.phase heq, congrArg Orchestrator.last heq⟩

/-- **A lookup may begin at any time.** -/
theorem Watched.beginLookup {raw : String} {e : Env σ}
    {progress : Progress (Except Failure (Json × Source))} (watched : c.Watched s)
    (heq : beginLookup s c.unrecorded raw = (e, progress)) :
    (c.leave e).Watched s ∧ progress.Aloof := by
  obtain ⟨horchestrator, haloof⟩ := (aloof_lookup s.playerLifetime raw).advance heq
  exact ⟨watched.leave horchestrator, haloof⟩

/-- It may go on at any time. -/
theorem Watched.resumeLookup {w : Wait (Except Failure (Json × Source))} {e : Env σ}
    {progress : Progress (Except Failure (Json × Source))} (watched : c.Watched s)
    (hw : ∀ a, Aloof (w.next a))
    (heq : w.resume s.collaborators false c.unrecorded = (e, progress)) :
    (c.leave e).Watched s ∧ progress.Aloof := by
  obtain ⟨horchestrator, haloof⟩ := Wait.resume_aloof hw heq
  exact ⟨watched.leave horchestrator, haloof⟩

theorem Newest.inj (h : c.Newest n standing) (h' : c.Newest m other) : n = m ∧ standing = other := by
  obtain rfl : n = m := Nat.le_antisymm (h'.2 n _ h.1) (h.2 m _ h'.1)
  exact ⟨rfl, h.1.inj h'.1⟩

/-- Once an epoch has been let in, there is one that was let in last. -/
theorem Admits.exists_newest (h : c.Admits n standing) : ∃ m other, c.Newest m other := by
  classical
  let p m := ∃ other, c.Admits m other
  obtain ⟨other, hother⟩ : p (Nat.findGreatest p c.visits.length) :=
    Nat.findGreatest_spec (Nat.le_of_lt h.lt_length) ⟨standing, h⟩
  exact ⟨_, other, hother,
    fun m other hm => Nat.le_findGreatest (Nat.le_of_lt hm.lt_length) ⟨other, hm⟩⟩

/-- A scene in which the same epochs stand where they stood, and the same can be seen. -/
theorem Displays.same (hc : c.Displays s) (orderly : c'.Orderly s)
    (hadmits : ∀ n standing, c'.Admits n standing ↔ c.Admits n standing)
    (hstopped : c.stopped = true → c'.stopped = true)
    (hphase : c'.env.orchestrator.phase = c.env.orchestrator.phase)
    (hlast : c'.env.orchestrator.last = c.env.orchestrator.last) : c'.Displays s := by
  have hnewest : ∀ n standing, c'.Newest n standing ↔ c.Newest n standing := fun n standing =>
    and_congr (hadmits ..) (forall_congr' fun m => forall_congr' fun other => by rw [hadmits])
  constructor
  case orderly => exact orderly
  case newest =>
    intro n standing h
    exact (hc.newest n standing ((hnewest ..).1 h)).mono hstopped hphase hlast
  case fresh =>
    intro h
    rw [hphase, hlast]
    exact hc.fresh fun n standing hadmit => h n standing ((hadmits ..).2 hadmit)
  case under =>
    intro n stage h
    exact (hnewest ..).2 (hc.under n stage ((hadmits ..).1 h))

/-- A scene in which the epoch that was let in last has had its turn. -/
theorem Displays.become (orderly : c'.Orderly s) (hnewest : c'.Newest n standing)
    (hothers : ∀ m stage, c'.Admits m (.under stage) → m = n)
    (hdisplayed : standing.Displayed s c'.stopped c'.env.orchestrator) : c'.Displays s := by
  constructor
  case orderly => exact orderly
  case newest =>
    intro m other h
    obtain ⟨rfl, rfl⟩ := h.inj hnewest
    exact hdisplayed
  case fresh => exact fun h => absurd hnewest.1 (h n standing)
  case under =>
    intro m stage h
    obtain rfl := hothers m stage h
    obtain rfl := h.inj hnewest.1
    exact hnewest

/-- An epoch that is let in can be seen. -/
theorem Displays.arrive_admitted (hc : c.Displays s) {entry : Entry}
    (heeded : entry.isHeeded c.stopped = true) (free : ¬ c.Busy) : (c.arrive s entry).Displays s := by
  obtain ⟨e₀, e', standing, hbegin, hrun, -, -⟩ :=
    beginEpoch_free s c.stopped entry.trigger (hc.orderly.inFlight_eq_false free)
  have orderly := (Step.arrival entry).orderly hc.orderly
  rw [arrive_heeded heeded hbegin] at orderly ⊢
  have hadmits : ∀ {m other}, (c.visits ++ [.begun (.ok standing)])[m]? = some (.begun (.ok other)) →
      m < c.visits.length ∧ c.Admits m other ∨ m = c.visits.length := by
    intro m other h
    obtain hlt | rfl | hgt := Nat.lt_trichotomy m c.visits.length
    · rw [List.getElem?_append_left hlt] at h
      exact .inl ⟨hlt, h⟩
    · exact .inr rfl
    · rw [List.getElem?_eq_none (by simpa using Nat.succ_le_of_lt hgt)] at h
      cases h
  obtain ⟨t, run, hc', hcancelled⟩ := exists_start s.policy entry.trigger c.stopped
  obtain ⟨hcomes, hrest⟩ := runEpoch_comes (s := s.recorded) run hc' hrun
  refine .become orderly ⟨List.getElem?_concat_length, fun m other h => ?_⟩ (fun m stage h => ?_)
    (hcomes.standing_displayed hrest (runEpoch_upshot hrun) (.inl (phases_eq_nil_of_subset hcancelled)))
  · obtain ⟨hlt, -⟩ | rfl := hadmits h
    · exact Nat.le_of_lt hlt
    · exact Nat.le_refl _
  · obtain ⟨-, h⟩ | rfl := hadmits h
    · exact absurd ⟨m, stage, h⟩ free
    · rfl

/-- An epoch that has its turn can be seen. -/
theorem Displays.turn (hc : c.Displays s) (n : Nat) : (c.turn s n).Displays s := by
  by_cases hadmits : ∃ standing, c.Admits n standing
  · obtain ⟨standing, h⟩ := hadmits
    cases standing with
    | ended epoch =>
      rw [turn_ended h]
      exact hc
    | under stage =>
      cases hresume : stage.resume s.recorded c.stopped c.env with
      | mk e' standing =>
        have orderly := (Step.turn n).orderly hc.orderly
        have hnewest := hc.under n stage h
        obtain ⟨trigger, t, run, hrest, hcancelled, hshown⟩ := hc.newest n _ hnewest
        obtain ⟨u, run, hc', hsubset⟩ := run.exists_later hrest hcancelled
        obtain ⟨hcomes, hrest'⟩ := Stage.resume_comes (s := s.recorded) run hrest hc' hresume
        have hself : (c.visits.set n (.begun (.ok standing)))[n]? = some (.begun (.ok standing)) :=
          List.getElem?_set_self h.lt_length
        have hadmits : ∀ {m other}, m ≠ n →
            (c.visits.set n (.begun (.ok standing)))[m]? = some (.begun (.ok other)) →
            c.Admits m other := by
          intro m other hne hm
          rwa [List.getElem?_set_ne (Ne.symm hne)] at hm
        rw [turn_of_admits h hresume] at orderly ⊢
        refine .become orderly ⟨hself, fun m other hm => ?_⟩ (fun m stage' hm => ?_)
          (hcomes.standing_displayed hrest' (Stage.resume_upshot ?_ hresume) (.inr ?_))
        · by_cases hne : m = n
          · exact Nat.le_of_eq hne
          · exact hnewest.2 m other (hadmits hne hm)
        · by_contra hne
          exact hne (hc.orderly.unique m n stage' stage (hadmits hne hm) h)
        · obtain ⟨_, _, clock, -⟩ := hc.orderly.clock n _ h
          exact clock.discreet
        · rw [phases_append, phases_eq_nil_of_subset hsubset, List.append_nil, hshown]
  · rw [turn_of_not_admits fun standing h => hadmits ⟨standing, h⟩]
    exact hc

/-- **Whatever happens next, what can be seen tells of the epoch that was let in last.** -/
theorem Displays.step {deed : Deed} (hc : c.Displays s) (hs : c.Step s deed c')
    (alone : deed = .elsewhere → c'.env.orchestrator.phase = c.env.orchestrator.phase ∧
      c'.env.orchestrator.last = c.env.orchestrator.last) : c'.Displays s := by
  have orderly := hs.orderly hc.orderly
  cases hs with
  | elsewhere e =>
    obtain ⟨hphase, hlast⟩ := alone rfl
    exact hc.same orderly (fun _ _ => Iff.rfl) id hphase hlast
  | shutdown => exact hc.same orderly (fun _ _ => Iff.rfl) (fun _ => rfl) rfl rfl
  | turn n => exact hc.turn n
  | arrival entry =>
    cases heeded : entry.isHeeded c.stopped with
    | false =>
      rw [arrive_ignored heeded] at orderly ⊢
      exact hc.same orderly (admits_append (by simp)) id rfl rfl
    | true =>
      by_cases busy : c.Busy
      · rw [arrive_refused hc.orderly heeded busy] at orderly ⊢
        exact hc.same orderly (admits_append (by simp)) id rfl rfl
      · exact hc.arrive_admitted heeded busy

/-- **Whatever has happened, what can be seen tells of the epoch that was let in last.** -/
theorem Watched.displays (watched : c.Watched s) : c.Displays s := by
  induction watched with
  | start e stopped sinks fresh created =>
    have orderly : Orderly s ⟨e, stopped, [], []⟩ :=
      (Watched.start e stopped sinks fresh created).reached.orderly
    refine ⟨orderly, fun n standing h => ?_, fun _ => ?_, fun n stage h => ?_⟩
    · simp [Newest, Admits] at h
    · simp [created, Orchestrator.create]
    · simp [Admits] at h
  | step _ hs alone ih => exact ih.step hs alone

/-- **The place is taken exactly while some phase but the idle one is shown.** -/
theorem Displays.inFlight_iff (hc : c.Displays s) :
    c.env.orchestrator.inFlight = true ↔ c.env.orchestrator.phase ≠ .idle := by
  rw [hc.orderly.inFlight_iff]
  constructor
  · rintro ⟨n, stage, h⟩
    obtain ⟨trigger, t, run, hrest, -, hshown⟩ := hc.newest n _ (hc.under n stage h)
    obtain ⟨-, hnot⟩ := run.phases_atRest hrest
    exact fun hidle => hnot (hidle ▸ List.mem_of_getLast? hshown)
  · intro hshown
    by_contra hfree
    by_cases hadmits : ∃ n standing, c.Admits n standing
    · obtain ⟨_, _, h⟩ := hadmits
      obtain ⟨n, standing, hnewest⟩ := h.exists_newest
      cases standing with
      | ended epoch => exact hshown (hc.newest n _ hnewest).1
      | under stage => exact hfree ⟨n, stage, hnewest.1⟩
    · exact hshown (hc.fresh fun n standing h => hadmits ⟨n, standing, h⟩).1

/-- **While the idle phase is shown, the epoch that is kept is the one that was let in last.** -/
theorem Displays.last_of_idle (hc : c.Displays s) (hidle : c.env.orchestrator.phase = .idle) :
    (∀ n standing, ¬ c.Admits n standing) ∧ c.env.orchestrator.last = none ∨
      ∃ n epoch, c.Newest n (.ended epoch) ∧ c.env.orchestrator.last = some epoch := by
  by_cases hadmits : ∃ n standing, c.Admits n standing
  · obtain ⟨_, _, h⟩ := hadmits
    obtain ⟨n, standing, hnewest⟩ := h.exists_newest
    cases standing with
    | ended epoch => exact .inr ⟨n, epoch, hnewest, (hc.newest n _ hnewest).2⟩
    | under stage =>
      have hinFlight := hc.orderly.inFlight_iff.2 ⟨n, stage, hnewest.1⟩
      exact absurd hidle (hc.inFlight_iff.1 hinFlight)
  · have hnone : ∀ n standing, ¬ c.Admits n standing := fun n standing h => hadmits ⟨n, standing, h⟩
    exact .inl ⟨hnone, (hc.fresh hnone).2⟩

/-- What can be seen of the epochs that have been let in. -/
structure Seen (s : Setup σ) (c : Scene σ) : Prop where
  /-- An epoch that is over has shown the course of phases. -/
  ended : ∀ n epoch, c.Admits n (.ended epoch) → ∃ trigger t,
    Run s.policy trigger t (.ended epoch) ∧ Itinerary t epoch
  /-- One that is under way shows the last of its phases so far. -/
  under : ∀ n stage, c.Admits n (.under stage) → ∃ trigger t,
    Run s.policy trigger t stage.situation ∧ stage.situation.AtRest ∧
      (phases t).getLast? = some c.env.orchestrator.phase
  /-- An epoch is shown to run exactly while the phase is not the idle one. -/
  inFlight_iff : c.env.orchestrator.inFlight = true ↔ c.env.orchestrator.phase ≠ .idle
  /-- While it is, the epoch that is shown is the one that was let in last, if there was any. -/
  idle : c.env.orchestrator.phase = .idle → ∃ last : Option Epoch,
    c.env.orchestrator.status = .ofMembers [("state", Phase.idle.json), ("running", .bool false),
      ("lastEpoch", .optional Epoch.summary last)] ∧ c.env.orchestrator.last = last ∧
    ((∀ n standing, ¬ c.Admits n standing) ∧ last = none ∨
      ∃ n epoch, c.Newest n (.ended epoch) ∧ last = some epoch)

theorem Displays.seen (hc : c.Displays s) : c.Seen s where
  ended := by
    intro n epoch h
    obtain ⟨trigger, cancelled, clock, -⟩ := hc.orderly.clock n _ h
    obtain ⟨t, run, -⟩ := clock.run
    exact ⟨trigger, t, run, run.itinerary⟩
  under := by
    intro n stage h
    obtain ⟨trigger, t, run, hrest, -, hshown⟩ := hc.newest n _ (hc.under n stage h)
    exact ⟨trigger, t, run, hrest, hshown⟩
  inFlight_iff := hc.inFlight_iff
  idle := by
    intro hidle
    have hfree : c.env.orchestrator.inFlight = false := by
      rw [← Bool.not_eq_true, hc.inFlight_iff]
      exact not_not_intro hidle
    exact ⟨_, Orchestrator.status_idle hidle hfree, rfl, hc.last_of_idle hidle⟩

end Scene

end Engine

end ContentSync
