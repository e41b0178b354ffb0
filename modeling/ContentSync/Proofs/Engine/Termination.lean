import ContentSync.Proofs.Engine.Fairness
import ContentSync.Proofs.Engine.Thorough
import ContentSync.Proofs.Engine.Upshot

/-!
# Every epoch ends

Whatever the collaborators do, also when a call never returns, and whatever the policy: an epoch that is
let in comes to its end and leaves the orchestrator as it should be. No call takes longer than its
limit, there are not many of them, and none of them keeps the epoch from the others.

* `Scene.Step.concluded` — what an epoch leaves when it ends;
* `Schedule.Completes` / `Schedule.Fair.completes` — an epoch that is let in ends under a fair schedule;
* `Limited` / `OnClock.limited` — what an epoch waits for has its limit;
* `termination` — all of it together.
-/

set_option autoImplicit false

namespace ContentSync.Engine

variable {σ : Type} {s : Setup σ}

/-! ## The end of an epoch -/

theorem beginEpoch_upshot {cancelled : Bool} {e e' : Env σ} {trigger : Trigger} {standing : Standing}
    (heq : beginEpoch s cancelled e trigger = (e', .ok standing)) : Upshot [] e e' standing := by
  unfold beginEpoch at heq
  split at heq
  · cases heq
  · rename_i orchestrator haccept
    have hmailbox : orchestrator.mailbox = e.orchestrator.mailbox := by
      unfold Orchestrator.accept at haccept
      split at haccept <;> cases haccept
      rfl
    have hcalm : e.Calm { e with orchestrator := orchestrator } := ⟨rfl, rfl, hmailbox⟩
    cases hrun : runEpoch s cancelled { e with orchestrator := orchestrator } trigger with
    | mk e₁ standing₁ =>
      rw [hrun] at heq
      cases heq
      exact (runEpoch_upshot hrun).of_calm hcalm

namespace Scene

variable {c c' : Scene σ} {deed : Deed} {i : Nat}

theorem admits_of_append {visit : Visit} {standing : Standing}
    (h : (c.visits ++ [visit])[i]? = some (.begun (.ok standing))) :
    c.Admits i standing ∨ visit = .begun (.ok standing) := by
  rw [List.getElem?_append] at h
  split at h
  · exact .inl h
  · rw [List.getElem?_singleton] at h
    split at h
    · exact .inr (Option.some.inj h)
    · cases h

/-- **An epoch leaves the orchestrator idle and free**, with itself as the last one and its event in
the queue, when it ends. -/
theorem Step.concluded (hs : c.Step s deed c') (hc : c.Orderly s) {epoch : Epoch}
    (hbefore : ∀ epoch, ¬ c.Admits i (.ended epoch)) (h : c'.Admits i (.ended epoch)) :
    c.env.orchestrator.Concluded c'.env.orchestrator epoch := by
  cases hs with
  | elsewhere | shutdown => exact absurd h (hbefore epoch)
  | arrival entry =>
    cases heeded : entry.isHeeded c.stopped with
    | false =>
      rw [arrive_ignored heeded] at h
      obtain h | h := admits_of_append h
      · exact absurd h (hbefore epoch)
      · cases h
    | true =>
      cases hbegin : beginEpoch s.recorded c.stopped c.env entry.trigger with
      | mk e' result =>
        rw [arrive_heeded heeded hbegin] at h ⊢
        obtain h | h := admits_of_append h
        · exact absurd h (hbefore epoch)
        · cases h
          cases beginEpoch_upshot hbegin with
          | ended concluded => exact concluded
  | turn n =>
    by_cases hadmits : ∃ standing, c.Admits n standing
    case neg =>
      rw [turn_of_not_admits fun standing h => hadmits ⟨standing, h⟩] at h
      exact absurd h (hbefore epoch)
    obtain ⟨standing, hn⟩ := hadmits
    cases standing with
    | ended =>
      rw [turn_ended hn] at h
      exact absurd h (hbefore epoch)
    | under stage =>
      cases hresume : stage.resume s.recorded c.stopped c.env with
      | mk e' standing =>
        rw [turn_of_admits hn hresume] at h ⊢
        by_cases hi : n = i
        · subst hi
          have hset : (c.visits.set n (.begun (.ok standing)))[n]? = _ :=
            List.getElem?_set_self hn.lt_length
          obtain rfl := Except.ok.inj (Visit.begun.inj (Option.some.inj (hset.symm.trans h)))
          obtain ⟨_, _, clock, -⟩ := hc.clock n _ hn
          cases Stage.resume_upshot clock.discreet hresume with
          | ended concluded => exact concluded
        · exact absurd ((List.getElem?_set_ne hi).symm.trans h) (hbefore epoch)

end Scene

namespace Schedule

/-- The epoch of a trigger comes to its end, as a run of its policy, and leaves the orchestrator as it
should be. -/
def Completes (h : Schedule s) (i : Nat) : Prop :=
  ∃ n epoch trigger t, (h.scene (n + 1)).Admits i (.ended epoch) ∧
    (h.scene n).env.orchestrator.Concluded (h.scene (n + 1)).env.orchestrator epoch ∧
    Run s.policy trigger t (.ended epoch)

/-- **An epoch that is let in completes** under a fair schedule. -/
theorem Fair.completes {h : Schedule s} (fair : h.Fair) (reached : (h.scene 0).Reached s)
    {entry : Entry} (hdeed : h.deed 0 = .arrival entry)
    (heeded : entry.isHeeded (h.scene 0).stopped = true) (free : ¬ (h.scene 0).Busy) :
    h.Completes (h.scene 0).visits.length := by
  obtain ⟨standing, hadmits⟩ :
      ∃ standing, (h.scene 1).Admits (h.scene 0).visits.length standing := by
    have hstep := h.step 0
    rw [hdeed] at hstep
    obtain ⟨standing, hvisits, -⟩ := Scene.arrive_admitted reached.orderly heeded free
    generalize h.scene 1 = c at hstep
    cases hstep
    exact ⟨standing, by simp [Scene.Admits, hvisits]⟩
  obtain ⟨m, epoch, hended⟩ := fair.exists_ended reached hadmits
  -- There is a first scene in which the epoch is over, and it is not the one before it came in.
  obtain ⟨n, hbefore, epoch, hended⟩ : ∃ n,
      (∀ epoch, ¬ (h.scene n).Admits (h.scene 0).visits.length (.ended epoch)) ∧
      ∃ epoch, (h.scene (n + 1)).Admits (h.scene 0).visits.length (.ended epoch) := by
    by_contra hnone
    have hnever : ∀ n epoch, ¬ (h.scene n).Admits (h.scene 0).visits.length (.ended epoch) := by
      intro n
      induction n with
      | zero => exact fun epoch h => absurd h.lt_length (Nat.lt_irrefl _)
      | succ n ih => exact fun epoch h => hnone ⟨n, ih, epoch, h⟩
    exact hnever m epoch hended
  obtain ⟨trigger, _, clock, -⟩ := (h.reached reached (n + 1)).orderly.clock _ _ hended
  obtain ⟨t, run, -⟩ := clock.run
  exact ⟨n, epoch, trigger, t, hended,
    (h.step n).concluded (h.reached reached n).orderly hbefore hended, run⟩

/-- Something happens before everything else. -/
def cons {c : Scene σ} {deed : Deed} (h : Schedule s) (hs : c.Step s deed (h.scene 0)) :
    Schedule s where
  scene
    | 0 => c
    | n + 1 => h.scene n
  deed
    | 0 => deed
    | n + 1 => h.deed n
  step
    | 0 => hs
    | n + 1 => h.step n

theorem Fair.cons {c : Scene σ} {deed : Deed} {h : Schedule s} (fair : h.Fair)
    (hs : c.Step s deed (h.scene 0)) : (h.cons hs).Fair := by
  intro i time
  obtain ⟨n, hn, hfair⟩ := fair i time
  exact ⟨n + 1, Nat.le_succ_of_le hn, hfair⟩

end Schedule

/-- There is a fair schedule for every trigger that comes in. -/
theorem Scene.Reached.exists_fair_arrival {c : Scene σ} (reached : c.Reached s) (entry : Entry) :
    ∃ h : Schedule s, h.scene 0 = c ∧ h.deed 0 = .arrival entry ∧ h.Fair := by
  have hstep : c.Step s (.arrival entry) (c.arrive s entry) := .arrival entry
  obtain ⟨h, hscene, fair⟩ := (reached.step hstep).exists_fair
  rw [← hscene] at hstep
  exact ⟨h.cons hstep, rfl, rfl, fair.cons hstep⟩

/-! ## Limits -/

/-- What an epoch waits for after a turn. Each call is made by the request with its limit. Either it
was waited for before and has time left, or it has begun in this turn, and has given way or ends when
its limit passes at the latest. -/
structure Limited (p : SyncPolicy) (old : List (Request × Hold)) (e : Env σ) (stage : Stage) :
    Prop where
  request_eq : ∀ x ∈ stage.pending, ∀ c, x.1.call? = some c → x.1 = p.requestOf c
  hold : ∀ x ∈ stage.pending, ∀ c, x.1.call? = some c → (x ∈ old ∧ HasTime e.now x) ∨
    x.2 = .opening e.round ∨ x.2.Since (p.limit c).milliseconds e.now

/-- What an epoch waits for is a request that it faces. -/
theorem Stage.facing_of_mem_pending {stage : Stage} {x : Request × Hold} (hx : x ∈ stage.pending) :
    ∃ w, stage.situation.Facing w x.1 := by
  cases stage with
  | checking w =>
    obtain rfl := List.mem_singleton.1 hx
    exact ⟨.epoch, .checking rfl w.next rfl⟩
  | writing w =>
    obtain rfl := List.mem_singleton.1 hx
    exact ⟨.epoch, .writing rfl w.next rfl⟩
  | fetching epoch f slots =>
    obtain ⟨slot, hslot, rfl⟩ := List.mem_map.1 hx
    have hmem : (slot.1, slot.2.thread) ∈ threads slots := List.mem_map_of_mem hslot
    exact ⟨.job slot.1, .fetching rfl hmem slot.2.next rfl⟩

/-- **Everything that an epoch waits for after a turn has its limit.** -/
theorem OnClock.limited {trigger : Trigger} {cancelled : Bool} {stage : Stage} {e e' : Env σ}
    {old : List (Request × Hold)} (clock : OnClock s trigger cancelled (.under stage))
    (hu : Upshot old e e' (.under stage)) : Limited s.policy old e stage := by
  obtain ⟨t, run, -⟩ := clock.run
  have hrequest : ∀ x ∈ stage.pending, ∀ c, x.1.call? = some c → x.1 = s.policy.requestOf c := by
    intro x hx c hc
    obtain ⟨w, hfacing⟩ := Stage.facing_of_mem_pending hx
    exact run.eq_requestOf hfacing hc
  refine ⟨hrequest, fun x hx c hc => ?_⟩
  cases hu with
  | under _ fresh =>
    refine (fresh x hx).imp_right fun hbegun => ?_
    obtain ⟨r, h⟩ := x
    obtain rfl : r = _ := hrequest _ hx c hc
    exact hbegun.since

/-! ## All together -/

/-- **Every epoch ends.** Whatever the collaborators do, and whatever the policy: a trigger that is
heeded while no epoch is under way lets one in, and under every fair schedule this comes to its end and
leaves the orchestrator idle and free, with its event in the queue. In each turn every call that it
waits for has begun or has time left within its own limit, and a call whose limit has passed is given
up. When it is over it has announced itself once, the number of its calls was limited by the attempts
and the targets, each was made with its limit, and it has skipped nothing. -/
theorem termination {σ : Type} (s : Setup σ) :
    (∀ (c : Scene σ) (entry : Entry), c.Reached s → entry.isHeeded c.stopped = true → ¬ c.Busy →
      (∃ h : Schedule s, h.scene 0 = c ∧ h.deed 0 = .arrival entry ∧ h.Fair) ∧
      ∀ h : Schedule s, h.scene 0 = c → h.deed 0 = .arrival entry → h.Fair →
        h.Completes c.visits.length) ∧
    (∀ trigger cancelled (e e' : Env σ) stage,
      runEpoch s cancelled e trigger = (e', .under stage) → Limited s.policy [] e stage) ∧
    (∀ trigger cancelled later stage (e e' : Env σ) stage',
      OnClock s trigger cancelled (.under stage) → (cancelled = true → later = true) →
      stage.resume s later e = (e', .under stage') → Limited s.policy stage.pending e stage') ∧
    (∀ (α : Type) (w : Wait α) cancelled (e : Env σ) c course due,
      w.request = s.policy.requestOf c → w.hold = .underWay course (some due) true → due ≤ e.now →
      ∃ a, (∀ x, ¬ Exchange.Brings c x ⟨w.request, a⟩) ∧
        w.resume s.collaborators cancelled e =
          advance s.collaborators cancelled (e.giveUp s.collaborators c) (w.next a)) ∧
    ∀ trigger t epoch, Run s.policy trigger t (.ended epoch) →
      announced t = [Event.ofEpoch epoch] ∧
      (∃ targets : List FetchTarget, targets.Nodup ∧
        (∀ target, target ∈ targets ↔ Concerned t target) ∧ targets.length ≤ 6 ∧
        (calls t).length ≤
          (targets.length + 1) * attemptLimit s.policy + 4 * targets.length + 3) ∧
      (∀ w r c, .asked w r ∈ t → r.call? = some c → r = s.policy.requestOf c) ∧
      ∀ m stored, Brought t .metadata m → Brought t .versions stored →
        Thorough s.policy t m stored epoch := by
  refine ⟨fun c entry reached heeded free => ⟨reached.exists_fair_arrival entry, ?_⟩, ?_, ?_, ?_, ?_⟩
  · rintro h rfl hdeed fair
    exact fair.completes reached hdeed heeded free
  · intro trigger cancelled e e' stage heq
    exact OnClock.limited (.begun heq) (runEpoch_upshot heq)
  · intro trigger cancelled later stage e e' stage' clock stays heq
    exact OnClock.limited (.resumed clock stays heq) (Stage.resume_upshot clock.discreet heq)
  · intro α w cancelled e c course due hrequest hhold hdue
    exact Wait.resume_overdue hrequest hhold hdue
  · intro trigger t epoch run
    obtain ⟨targets, hnodup, hconcerned, hlength⟩ := exists_concerned t
    refine ⟨run.announced_eq, ⟨targets, hnodup, hconcerned, hlength,
      run.length_calls_le fun target => (hconcerned target).2⟩, fun w r c hasked hc => ?_,
      fun m stored => run.thorough⟩
    obtain ⟨before, after, rfl⟩ := List.append_of_mem hasked
    obtain ⟨_, run, hfacing⟩ := run.faced .asked
    exact run.eq_requestOf hfacing hc

/-- Collaborators that answer nothing in time. -/
def Collaborators.mute : Collaborators Unit where
  givesWay _ := false
  start o _ _ _ := (⟨none, none⟩, o)
  answer o _ _ := (.error .cancelled, o)
  finish o _ := o

/-- With collaborators that never answer an epoch ends all the same. Where only the versions come and
everything else that is asked of the stores takes too long, it does what it can. -/
theorem termination_stuck :
    (∃ h : Schedule ⟨Collaborators.mute, .fullOnly, .seconds 60⟩,
      h.scene 0 = ⟨⟨0, 0, false, 0, .create [], ⟨(), []⟩⟩, false, [], []⟩ ∧
        h.deed 0 = .arrival .request ∧ h.Completes 0) ∧
    (∃ e' stage, runEpoch ⟨Collaborators.mute, .fullOnly, .seconds 60⟩ false
        ⟨0, 0, false, 0, .create [], ()⟩ .manual = (e', .under stage) ∧
      Limited .fullOnly [] ⟨0, 0, false, 0, .create [], ()⟩ stage ∧
      ∃ e'' stage', stage.resume ⟨Collaborators.mute, .fullOnly, .seconds 60⟩ false
          { e' with now := 60000 } = (e'', .under stage') ∧
        Limited .fullOnly stage.pending { e' with now := 60000 } stage') ∧
    (∃ (w : Wait Unit) (a : w.request.Answer), (∀ x, ¬ Exchange.Brings .metadata x ⟨w.request, a⟩) ∧
      w.resume .mute false ⟨0, 0, false, 0, .create [], ()⟩ =
        advance .mute false
          (Env.giveUp .mute ⟨0, 0, false, 0, .create [], ()⟩ .metadata) (w.next a)) ∧
    ∃ t epoch targets, Run .fullOnly .manual t (.ended epoch) ∧
      (calls t).length ≤ (List.length targets + 1) * 3 + 4 * targets.length + 3 ∧
      (∀ target, target ∈ targets ↔ Concerned t target) ∧
      Thorough .fullOnly t ⟨⟨"3"⟩, ⟨"1"⟩⟩ ⟨some ⟨"2"⟩, some ⟨"1"⟩⟩ epoch := by
  obtain ⟨ends, begun, resumed, overdue, ended⟩ :=
    termination ⟨Collaborators.mute, .fullOnly, .seconds 60⟩
  refine ⟨?_, ?_, ?_, ?_⟩
  · have reached : Scene.Reached ⟨Collaborators.mute, .fullOnly, .seconds 60⟩
        ⟨⟨0, 0, false, 0, .create [], ⟨(), []⟩⟩, false, [], []⟩ := .start _ _ rfl rfl
    obtain ⟨⟨h, hscene, hdeed, fair⟩, hall⟩ :=
      ends _ .request reached rfl fun busy => by cases reached.orderly.inFlight_iff.2 busy
    exact ⟨h, hscene, hdeed, hall h hscene hdeed fair⟩
  · -- The kernel runs the first two turns; both leave the epoch under way.
    have hstays : (match runEpoch ⟨Collaborators.mute, .fullOnly, .seconds 60⟩ false
          ⟨0, 0, false, 0, .create [], ()⟩ .manual with
        | (e', .under stage) => ((stage.resume ⟨Collaborators.mute, .fullOnly, .seconds 60⟩ false
            { e' with now := 60000 }).2 matches .under _)
        | (_, .ended _) => false) = true := by decide +kernel
    obtain ⟨e', stage, hbegun⟩ : ∃ e' stage,
        runEpoch ⟨Collaborators.mute, .fullOnly, .seconds 60⟩ false
          ⟨0, 0, false, 0, .create [], ()⟩ .manual = (e', .under stage) := ⟨_, _, rfl⟩
    rw [hbegun] at hstays
    obtain ⟨e'', stage', hresumed⟩ : ∃ e'' stage',
        stage.resume ⟨Collaborators.mute, .fullOnly, .seconds 60⟩ false
          { e' with now := 60000 } = (e'', .under stage') := by
      cases hresume : stage.resume ⟨Collaborators.mute, .fullOnly, .seconds 60⟩ false
          { e' with now := 60000 } with
      | mk e'' standing =>
        cases standing with
        | under stage' => exact ⟨e'', stage', rfl⟩
        | ended => simp [hresume] at hstays
    exact ⟨e', stage, hbegun, begun _ _ _ _ _ hbegun, e'', stage', hresumed,
      resumed _ _ _ _ _ _ _ (.begun hbegun) id hresumed⟩
  · let w : Wait Unit :=
      ⟨0, SyncPolicy.fullOnly.requestOf .metadata, .underWay ⟨none, none⟩ (some 0) true,
        fun _ => .done ()⟩
    exact ⟨w, overdue Unit w false _ .metadata ⟨none, none⟩ 0 rfl rfl (Nat.le_refl 0)⟩
  · let played := ((Conduct.smooth ⟨⟨"3"⟩, ⟨"1"⟩⟩ ⟨some ⟨"2"⟩, some ⟨"1"⟩⟩ (.object [])
      fun _ => false).slow fun c => !(c matches .versions)).play .fullOnly .manual false
    have run : Run .fullOnly .manual played.history (.ended played.result) := Conduct.play_run false
    obtain ⟨-, ⟨targets, -, hconcerned, -, hle⟩, -, hthorough⟩ := ended .manual _ _ run
    have hmetadata : Brought played.history .metadata ⟨⟨"3"⟩, ⟨"1"⟩⟩ :=
      ⟨.epoch, _, List.mem_of_getElem? (i := 5) rfl, .attempt _⟩
    have hversions : Brought played.history .versions ⟨some ⟨"2"⟩, some ⟨"1"⟩⟩ :=
      ⟨.epoch, _, List.mem_of_getElem? (i := 7) rfl, .call _⟩
    exact ⟨_, _, targets, run, hle, hconcerned, hthorough _ _ hmetadata hversions⟩

end ContentSync.Engine
