import ContentSync.Proofs.Engine.Display
import ContentSync.Proofs.Engine.Heedless
import ContentSync.Proofs.Engine.Termination
import ContentSync.Proofs.Notice.Delivery

/-!
# Every epoch is announced

Triggers come in, epochs are let in or refused and come to their ends, while events are delivered to
sinks that may fail, and the one who delivers may be dropped. Each epoch that is let in is announced
when it is over, and delivery makes no difference to it.

* `Scene.finished` — the epochs that are over, in order;
* `Scene.InTurn` — no epoch has been let in since the one that is under way;
* `Scene.Step.announces` — an epoch that ends is announced once, and nothing else is;
* `Broadcast` — a scene whose events are delivered by a post;
* `Broadcast.announced` — the events are those of the epochs that are over;
* `notification` — what is announced, what is delivered, and what does not depend on it.
-/

set_option autoImplicit false

namespace ContentSync.Engine

variable {σ : Type} {s : Setup σ}

/-! ## Epochs that are over -/

/-- The epoch to which a trigger has led, once it is over. -/
def Visit.finished? : Visit → Option Epoch
  | begun (.ok (.ended epoch)) => some epoch
  | _ => none

namespace Scene

variable {c c' : Scene σ} {deed : Deed}

/-- The epochs that are over. One after another is let in, so that this is the order in which they
have come to their ends. -/
def finished (c : Scene σ) : List Epoch := c.visits.filterMap Visit.finished?

theorem eq_of_finished?_eq_some {visit : Visit} {epoch : Epoch}
    (h : visit.finished? = some epoch) : visit = .begun (.ok (.ended epoch)) := by
  unfold Visit.finished? at h
  split at h
  · cases h
    rfl
  · cases h

theorem mem_finished {epoch : Epoch} : epoch ∈ c.finished ↔ ∃ i, c.Admits i (.ended epoch) := by
  refine List.mem_filterMap.trans ⟨?_, ?_⟩
  · rintro ⟨visit, hmem, heq⟩
    rw [eq_of_finished?_eq_some heq] at hmem
    exact List.mem_iff_getElem?.1 hmem
  · rintro ⟨i, hi⟩
    exact ⟨_, List.mem_of_getElem? hi, rfl⟩

/-- No epoch has been let in since the one that is under way. -/
def InTurn (c : Scene σ) : Prop :=
  ∀ n stage, c.Admits n (.under stage) → c.Newest n (.under stage)

/-- None that has been let in since an epoch that is under way is over. -/
theorem InTurn.finished_drop (hc : c.InTurn) {n : Nat} {stage : Stage}
    (hn : c.Admits n (.under stage)) :
    (c.visits.drop (n + 1)).filterMap Visit.finished? = [] := by
  refine List.filterMap_eq_nil_iff.2 fun visit hmem => ?_
  obtain ⟨i, hi⟩ := List.mem_iff_getElem?.1 hmem
  rw [List.getElem?_drop] at hi
  cases hvisit : visit.finished? with
  | none => rfl
  | some epoch =>
    rw [eq_of_finished?_eq_some hvisit] at hi
    have hle := (hc n stage hn).2 _ _ hi
    omega

/-- What a turn of an epoch adds to those that are over. -/
theorem InTurn.finished_set (hc : c.InTurn) {n : Nat} {stage : Stage}
    (hn : c.Admits n (.under stage)) (standing : Standing) :
    (c.visits.set n (.begun (.ok standing))).filterMap Visit.finished? =
      c.finished ++ (Visit.begun (.ok standing)).finished?.toList := by
  have hlt := hn.lt_length
  have hget : c.visits[n] = .begun (.ok (.under stage)) := (List.getElem?_eq_some_iff.1 hn).2
  have hvisits : c.visits = c.visits.take n ++ .begun (.ok (.under stage)) ::
      c.visits.drop (n + 1) := by
    rw [← hget, ← List.drop_eq_getElem_cons hlt, List.take_append_drop]
  have hbefore : c.finished = (c.visits.take n).filterMap Visit.finished? := by
    refine (congrArg _ hvisits).trans ?_
    rw [List.filterMap_append, List.filterMap_cons_none rfl, hc.finished_drop hn, List.append_nil]
  rw [List.set_eq_take_append_cons_drop, if_pos hlt, List.filterMap_append, hbefore]
  cases hstanding : (Visit.begun (.ok standing)).finished? with
  | none => rw [List.filterMap_cons_none hstanding, hc.finished_drop hn]; rfl
  | some epoch => rw [List.filterMap_cons_some hstanding, hc.finished_drop hn]; rfl

/-! ## What is announced -/

/-- What a step of the epochs adds to those that are over and puts into the mailbox: the one that has
ended and its event, or nothing. -/
inductive Announces (c c' : Scene σ) : Prop
  | nothing (finished_eq : c'.finished = c.finished)
    (mailbox_eq : c'.env.orchestrator.mailbox = c.env.orchestrator.mailbox) : Announces c c'
  | ended (epoch : Epoch) (finished_eq : c'.finished = c.finished ++ [epoch])
    (concluded : c.env.orchestrator.Concluded c'.env.orchestrator epoch) : Announces c c'

/-- A trigger comes in for which no epoch is let in. -/
theorem Announces.of_visit {visit : Visit} (hv : visit.finished? = none) :
    c.Announces { c with visits := c.visits ++ [visit] } :=
  .nothing (by simp [finished, hv]) rfl

/-- What becomes of an epoch in a turn. -/
theorem Announces.of_upshot {old : List (Request × Hold)} {standing : Standing}
    (hu : Upshot old c.env c'.env standing)
    (hfinished : c'.finished = c.finished ++ (Visit.begun (.ok standing)).finished?.toList) :
    c.Announces c' := by
  cases hu with
  | ended concluded => exact .ended _ hfinished concluded
  | under calm => exact .nothing (hfinished.trans (List.append_nil _)) calm.mailbox_eq

theorem Step.announces (hs : c.Step s deed c') (hdeed : deed ≠ .elsewhere) (hc : c.Orderly s)
    (hturn : c.InTurn) : c.Announces c' := by
  cases hs with
  | elsewhere => exact absurd rfl hdeed
  | shutdown => exact .nothing rfl rfl
  | arrival entry =>
    cases heeded : entry.isHeeded c.stopped with
    | false =>
      rw [arrive_ignored heeded]
      exact .of_visit rfl
    | true =>
      by_cases busy : c.Busy
      · rw [arrive_refused hc heeded busy]
        exact .of_visit rfl
      · obtain ⟨_, e', standing, hbegin, -, -, -⟩ :=
          beginEpoch_free s c.stopped entry.trigger (hc.inFlight_eq_false busy)
        rw [arrive_heeded heeded hbegin]
        refine .of_upshot (beginEpoch_upshot hbegin) ?_
        simp only [finished, List.filterMap_append]
        cases hstanding : (Visit.begun (.ok standing)).finished? <;> simp [hstanding]
  | turn n =>
    by_cases hadmits : ∃ standing, c.Admits n standing
    case neg =>
      rw [turn_of_not_admits fun standing h => hadmits ⟨standing, h⟩]
      exact .nothing rfl rfl
    obtain ⟨standing, hn⟩ := hadmits
    cases standing with
    | ended =>
      rw [turn_ended hn]
      exact .nothing rfl rfl
    | under stage =>
      cases hresume : stage.resume s.recorded c.stopped c.env with
      | mk e' standing =>
        obtain ⟨_, _, clock, -⟩ := hc.clock n _ hn
        rw [turn_of_admits hn hresume]
        exact .of_upshot (Stage.resume_upshot clock.discreet hresume)
          (hturn.finished_set hn standing)

/-! ## One after another -/

theorem InTurn.of_visit (hc : c.InTurn) {visit : Visit}
    (hv : ∀ standing, visit ≠ .begun (.ok standing)) :
    InTurn { c with visits := c.visits ++ [visit] } := fun n stage hn =>
  ⟨hn, fun m other hm =>
    (hc n stage ((admits_append hv ..).1 hn)).2 m other ((admits_append hv ..).1 hm)⟩

theorem Step.inTurn (hs : c.Step s deed c') (hc : c.Orderly s) (hturn : c.InTurn) : c'.InTurn := by
  cases hs with
  | elsewhere | shutdown => exact hturn
  | arrival entry =>
    cases heeded : entry.isHeeded c.stopped with
    | false =>
      rw [arrive_ignored heeded]
      exact hturn.of_visit (by simp)
    | true =>
      by_cases busy : c.Busy
      · rw [arrive_refused hc heeded busy]
        exact hturn.of_visit (by simp)
      · -- The epoch that is let in is the only one that can be under way, and the last one.
        obtain ⟨standing, hvisits, -⟩ := arrive_admitted hc heeded busy
        intro n stage hn
        refine ⟨hn, fun m other hm => ?_⟩
        have hlt := hm.lt_length
        unfold Admits at hn
        rw [hvisits] at hn hlt
        rw [List.length_append, List.length_singleton] at hlt
        rw [List.getElem?_append] at hn
        split at hn
        · exact absurd ⟨n, stage, hn⟩ busy
        · omega
  | turn i =>
    by_cases hadmits : ∃ standing, c.Admits i standing
    case neg =>
      rw [turn_of_not_admits fun standing h => hadmits ⟨standing, h⟩]
      exact hturn
    obtain ⟨before, hi⟩ := hadmits
    cases before with
    | ended =>
      rw [turn_ended hi]
      exact hturn
    | under stage₀ =>
      -- The epoch that has its turn is the one that was let in last, and stays it.
      cases hresume : stage₀.resume s.recorded c.stopped c.env with
      | mk e' after =>
        rw [turn_of_admits hi hresume]
        have hold : ∀ {m other}, m ≠ i →
            (c.visits.set i (.begun (.ok after)))[m]? = some (.begun (.ok other)) →
            c.Admits m other := fun hne h => (List.getElem?_set_ne (Ne.symm hne)).symm.trans h
        intro n stage hn
        obtain rfl : n = i := by
          by_contra hne
          exact hne (hc.unique n i stage stage₀ (hold hne hn) hi)
        refine ⟨hn, fun m other hm => ?_⟩
        by_cases hne : m = n
        · exact Nat.le_of_eq hne
        · exact (hturn n stage₀ hi).2 m other (hold hne hm)

/-- **Epochs are let in one after another**, whatever has happened. -/
theorem Reached.inTurn (reached : c.Reached s) : c.InTurn := by
  induction reached with
  | start => exact fun n stage hn => absurd hn.lt_length (Nat.not_lt_zero n)
  | step reached hs ih => exact hs.inTurn reached.orderly ih

end Scene

/-! ## Events on their way -/

/-- A scene whose events are delivered by a post, and what has happened to the post. While the
orchestrator is there, it may emit events. -/
inductive Broadcast (s : Setup σ) (sinks : List Sink) : Scene σ → List PostStep → Prop
  | start (e : Env (Recorded σ)) (stopped : Bool) (free : e.orchestrator.inFlight = false)
    (fresh : e.outside.marks = []) (mailbox_eq : e.orchestrator.mailbox = .create sinks) :
    Broadcast s sinks ⟨e, stopped, [], []⟩ []
  /-- Something happens elsewhere that is of no concern to the post. -/
  | elsewhere {c : Scene σ} {history : List PostStep} (before : Broadcast s sinks c history)
    (e : Env (Recorded σ)) (inFlight_eq : e.orchestrator.inFlight = c.env.orchestrator.inFlight)
    (marks_eq : e.outside.marks = c.env.outside.marks)
    (mailbox_eq : e.orchestrator.mailbox = c.env.orchestrator.mailbox) :
    Broadcast s sinks { c with env := e } history
  /-- Something happens to the post but that an event is emitted. -/
  | post {c : Scene σ} {history : List PostStep} (before : Broadcast s sinks c history)
    (a : PostStep) (ha : ∀ event, a ≠ .emit event) :
    Broadcast s sinks (c.withMailbox (Post.after sinks (history ++ [a])).mailbox) (history ++ [a])
  /-- Something happens with the epochs. The events of those that end in it are emitted. -/
  | step {c c' : Scene σ} {history : List PostStep} {deed : Deed}
    (before : Broadcast s sinks c history) (present : c.env.orchestrator.mailbox.emitting = true)
    (hdeed : deed ≠ .elsewhere) (hs : c.Step s deed c') :
    Broadcast s sinks c' (history ++
      (c'.finished.drop c.finished.length).map fun epoch => .emit (Event.ofEpoch epoch))

namespace Broadcast

variable {sinks : List Sink} {c : Scene σ} {history : List PostStep}

theorem reached (h : Broadcast s sinks c history) : c.Reached s := by
  induction h with
  | start e stopped free fresh => exact .start e stopped free fresh
  | elsewhere _ e inFlight_eq marks_eq _ ih => exact ih.step (.elsewhere e inFlight_eq marks_eq)
  | post _ a _ ih => exact ih.step (Scene.step_withMailbox _ _)
  | step _ _ _ hs ih => exact ih.step hs

/-- **The events are those of the epochs that are over**, one for each and in order, and the mailbox is
the one of the post. -/
theorem announced (h : Broadcast s sinks c history) :
    c.env.orchestrator.mailbox = (Post.after sinks history).mailbox ∧
      (Post.after sinks history).offered = c.finished.map Event.ofEpoch := by
  induction h with
  | start e stopped free fresh mailbox_eq => exact ⟨mailbox_eq, rfl⟩
  | elsewhere _ e _ _ mailbox_eq ih => exact ⟨mailbox_eq.trans ih.1, ih.2⟩
  | post _ a ha ih =>
    refine ⟨rfl, ?_⟩
    rw [Post.after_append, Post.offered_step ha]
    exact ih.2
  | @step c c' history deed before present hdeed hs ih =>
    obtain ⟨hmailbox, hoffered⟩ := ih
    cases hs.announces hdeed before.reached.orderly before.reached.inTurn with
    | nothing finished_eq mailbox_eq =>
      rw [finished_eq, List.drop_length, List.map_nil, List.append_nil]
      exact ⟨mailbox_eq.trans hmailbox, hoffered⟩
    | ended epoch finished_eq concluded =>
      rw [finished_eq, List.drop_left, List.map_singleton, Post.after_append]
      rw [hmailbox] at present
      have hemit : (Post.after sinks history).step (.emit (Event.ofEpoch epoch)) =
          (Post.after sinks history).emit (Event.ofEpoch epoch) := rfl
      -- The orchestrator is still there, so that the post takes note of the event.
      rw [hemit, Post.emit, if_pos present]
      exact ⟨concluded.mailbox_eq.trans (by rw [hmailbox]), by simp [hoffered]⟩

end Broadcast

/-! ## All together -/

/-- **Every epoch is announced once, in order, to every sink.** Whatever triggers come in, and whatever
the sinks and the one who delivers do: what happens with the epochs announces the one that has ended and
nothing else, and so the events that are emitted are those of the epochs that are over, one for each and
in this order. Whatever happens to a post, it delivers what was emitted, once and in order. And the
delivery makes no difference to the epochs, to what they have done with the collaborators, or to these:
where everything else is the same, nothing but the mailbox is different. -/
theorem notification {σ : Type} (s : Setup σ) :
    (∀ (c c' : Scene σ) deed, c.Reached s → deed ≠ .elsewhere → c.Step s deed c' →
      c.Announces c') ∧
    (∀ sinks (c : Scene σ) history, Broadcast s sinks c history →
      c.Reached s ∧ c.env.orchestrator.mailbox = (Post.after sinks history).mailbox ∧
      (Post.after sinks history).offered = c.finished.map Event.ofEpoch ∧
      ∀ epoch ∈ c.finished, ∃ trigger t,
        Run s.policy trigger t (.ended epoch) ∧ announced t = [Event.ofEpoch epoch]) ∧
    (∀ sinks history, (Post.after sinks history).Delivers sinks) ∧
    ∀ c d : Scene σ, c.Parallel s d →
      d.visits = c.visits ∧ d.trace = c.trace ∧ d.env.outside = c.env.outside ∧
      ∃ m, d = c.withMailbox m := by
  refine ⟨fun c c' deed reached hdeed hs => hs.announces hdeed reached.orderly reached.inTurn, ?_,
    Post.delivers_after, ?_⟩
  · intro sinks c history h
    obtain ⟨hmailbox, hoffered⟩ := h.announced
    refine ⟨h.reached, hmailbox, hoffered, fun epoch hepoch => ?_⟩
    obtain ⟨i, hi⟩ := Scene.mem_finished.1 hepoch
    obtain ⟨trigger, _, clock, -⟩ := h.reached.orderly.clock i _ hi
    obtain ⟨t, run, -⟩ := clock.run
    exact ⟨trigger, t, run, run.announced_eq⟩
  · intro c d h
    obtain ⟨m, rfl⟩ := h.withMailbox
    exact ⟨rfl, rfl, rfl, m, rfl⟩

/-- Collaborators that refuse whatever they are asked, at once. -/
def Collaborators.refusing : Collaborators Unit where
  givesWay _ := false
  start o _ _ _ := (⟨some 0, some .cancelled⟩, o)
  answer o _ _ := (.error .cancelled, o)
  finish o _ := o

/-- An epoch that is over as soon as it has been let in. Its event is dispatched to a sink that fails.
Where the one who delivers is gone when it comes in, the epoch is the same. -/
theorem notification_failing :
    ∃ (c d : Scene Unit) (epoch : Epoch) (history : List PostStep),
      Broadcast ⟨Collaborators.refusing, .fullOnly, .seconds 60⟩
        [.failing "log" .cancelled] c history ∧
      c.finished = [epoch] ∧
      c.env.orchestrator.mailbox.sinks.map (·.handed) = [[Event.ofEpoch epoch]] ∧
      d.env.orchestrator.mailbox.listening = false ∧ d.visits = c.visits := by
  let s : Setup Unit := ⟨Collaborators.refusing, .fullOnly, .seconds 60⟩
  let sinks : List Sink := [.failing "log" .cancelled]
  let start (m : Mailbox) : Scene Unit :=
    ⟨⟨0, 0, false, 0, ⟨.idle, false, none, m⟩, ⟨(), []⟩⟩, false, [], []⟩
  obtain ⟨-, hbroadcast, -, hparallel⟩ := notification s
  let c := (start (.create sinks)).arrive s .request
  let d := (start (Mailbox.create sinks).stopListening).arrive s .request
  obtain ⟨epoch, hfinished⟩ : ∃ epoch, c.finished = [epoch] := ⟨_, rfl⟩
  have hstart : Broadcast s sinks (start (.create sinks)) [] := .start _ _ rfl rfl rfl
  have hended : Broadcast s sinks c [.emit (Event.ofEpoch epoch)] := by
    have h := hstart.step rfl (by simp) (.arrival .request)
    rwa [show (start (.create sinks)).arrive s .request = c from rfl, hfinished] at h
  have hdispatched := ((((hended.post .beginDispatch (by simp)).post .take (by simp)).post .hand
    (by simp)).post .hand (by simp)).post .endDispatch (by simp)
  have hmailbox := (hbroadcast _ _ _ hdispatched).2.1
  have hvisits := (hparallel c d (.step (.start (start (.create sinks)).env
    (Mailbox.create sinks).stopListening false rfl rfl) (by simp) (.arrival .request)
    (.arrival .request))).1
  exact ⟨_, d, epoch, _, hdispatched, hfinished, by rw [hmailbox]; rfl, rfl, hvisits⟩

end ContentSync.Engine
