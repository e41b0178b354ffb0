import ContentSync.Proofs.Engine.Fairness
import ContentSync.Rehearsal.Rounds

/-!
# One epoch at a time

At most one epoch runs at a time, a trigger that comes in meanwhile is refused and changes nothing, and
any other one is let in and comes to its end.

* `Play.request_sync`, `Play.runErrand_refused`, `Play.afterErrand_refused` — what the server does when
  it is asked for an epoch while one is in flight;
* `Play.beginOne_triggered` — what the application does then, or when it has been shut down;
* `one_at_a_time` — one epoch at a time, for every interleaving.
-/

set_option autoImplicit false

namespace ContentSync.Rehearsal

open Engine

/-! ## What is refused -/

namespace Play

variable {p : Play} {i : Nat}

/-- The server is asked for an epoch, which will run on its own. -/
theorem request_sync (p : Play) (giveUpAfter : Option Nat) :
    (p.request "POST" "/sync" giveUpAfter).1.errands = p.errands ++ [.asked] ∧
      (p.request "POST" "/sync" giveUpAfter).1.orchestrator = p.orchestrator := by
  have hroute : Route.of "POST" "/sync" = .sync := by decide +kernel
  have hafter : ∀ (q : Play) method patience errand,
      (q.afterErrand method patience errand).1 = q := by
    intro q method patience errand
    unfold afterErrand
    split
    · rfl
    · split <;> rfl
  simp only [request, hroute, hafter]
  cases giveUpAfter <;> exact ⟨rfl, rfl⟩

/-- An errand that asks for an epoch while one is in flight is refused, and nothing else changes. -/
theorem runErrand_refused (hasked : p.errands[i]? = some .asked)
    (hinFlight : p.orchestrator.inFlight = true) :
    p.runErrand i = { p with errands := p.errands.set i (.begun (.error .inFlight)) } := by
  unfold runErrand
  rw [hasked]
  dsimp only
  rw [beginEpoch_inFlight hinFlight]
  rfl

/-- The server says then that there is a conflict. -/
theorem afterErrand_refused (hrefused : p.errands[i]? = some (.begun (.error .inFlight)))
    (method : String) (patience : Option Timer) :
    ∃ response, p.afterErrand method patience i = p.finish (.response response) ∧
      response.status = 409 := by
  refine ⟨(Response.ofEpoch (.error .inFlight)).forMethod method, ?_, ?_⟩
  · simp [afterErrand, hrefused, Errand.result?, resultOf?]
  · unfold Response.forMethod
    split <;> rfl

/-- A trigger of the application changes nothing while an epoch is in flight, or when the application
has been shut down. -/
theorem beginOne_triggered (trigger : Trigger)
    (h : p.stopped = true ∨ p.orchestrator.inFlight = true) :
    p.beginOne (.triggered trigger) = p.finish (.last p.orchestrator.last) := by
  unfold beginOne
  dsimp only
  split
  · rfl
  · rename_i hstopped
    rw [beginEpoch_inFlight (h.resolve_left hstopped)]
    rfl

end Play

/-! ## Any interleaving -/

/-- **One epoch at a time.** Whatever the triggers that have come in, from the application or from
requests, and however their epochs have had their turns: what is done with the collaborators is done
for epochs that have been let in, and for one of them before anything is done for the next; at most one
is under way. A trigger that comes in while one is under way is refused, and nothing else changes; the
server answers that there is a conflict. A trigger that comes in while none is under way is let in, and
its epoch comes to its end under every fair schedule, of which there are some. -/
theorem one_at_a_time {σ : Type} {s : Setup σ} {c : Scene σ} (reached : c.Reached s) :
    (c.trace.map Prod.snd = c.env.outside.marks ∧
      (∀ mark ∈ c.trace, ∃ standing, c.Admits mark.1 standing) ∧
      c.trace.Pairwise fun a b => a.1 ≤ b.1) ∧
    (∀ m n stage stage', c.Admits m (.under stage) → c.Admits n (.under stage') → m = n) ∧
    (∀ entry : Entry, entry.isHeeded c.stopped = true → c.Busy →
      c.arrive s entry = { c with visits := c.visits ++ [.begun (.error .inFlight)] }) ∧
    (∀ p : Play, p.orchestrator.inFlight = true →
      (∀ trigger, p.beginOne (.triggered trigger) = p.finish (.last p.orchestrator.last)) ∧
      (∀ giveUpAfter, (p.request "POST" "/sync" giveUpAfter).1.errands = p.errands ++ [.asked] ∧
        (p.request "POST" "/sync" giveUpAfter).1.orchestrator = p.orchestrator) ∧
      ∀ i, p.errands[i]? = some .asked →
        p.runErrand i = { p with errands := p.errands.set i (.begun (.error .inFlight)) } ∧
        ∀ method patience, ∃ response,
          (p.runErrand i).afterErrand method patience i =
            (p.runErrand i).finish (.response response) ∧ response.status = 409) ∧
    ∀ entry : Entry, entry.isHeeded c.stopped = true → ¬ c.Busy →
      (∃ standing, (c.arrive s entry).Admits c.visits.length standing) ∧
      (∃ schedule : Schedule s, schedule.scene 0 = c.arrive s entry ∧ schedule.Fair) ∧
      ∀ schedule : Schedule s, schedule.scene 0 = c.arrive s entry → schedule.Fair →
        ∃ n epoch, (schedule.scene n).Admits c.visits.length (.ended epoch) := by
  have hc := reached.orderly
  refine ⟨⟨hc.noted, hc.owned, hc.ordered⟩, hc.unique, fun _ => Scene.arrive_refused hc,
    fun p hinFlight => ⟨fun trigger => Play.beginOne_triggered trigger (.inr hinFlight),
      p.request_sync, fun i hasked => ?_⟩,
    fun entry heeded free => ?_⟩
  · have hrun := Play.runErrand_refused hasked hinFlight
    refine ⟨hrun, Play.afterErrand_refused ?_⟩
    rw [hrun]
    exact List.getElem?_set_self (List.getElem?_eq_some_iff.1 hasked).1
  · obtain ⟨standing, hvisits, -⟩ := Scene.arrive_admitted hc heeded free
    have hadmits : (c.arrive s entry).Admits c.visits.length standing := by
      simp [Scene.Admits, hvisits]
    have hreached : (c.arrive s entry).Reached s := reached.step (.arrival entry)
    refine ⟨⟨standing, hadmits⟩, hreached.exists_fair, fun schedule hstart fair => ?_⟩
    rw [← hstart] at hadmits hreached
    exact fair.exists_ended hreached hadmits

/-- The server is asked for an epoch twice, and the application starts one in between. -/
theorem one_at_a_time_asked :
    let s : Setup Backstage := ⟨collaborators, .default, .seconds 60⟩
    let start : Env Backstage := ⟨0, 0, false, 0, .create [], .create ⟨none, none⟩ false⟩
    let c : Scene Backstage := ⟨⟨0, 0, false, 0, .create [], ⟨start.outside, []⟩⟩, false, [], []⟩
    let p : Play := Play.runErrand ⟨s, start, [.asked, .asked], false, 0⟩ 0
    (c.arrive s .request).Busy ∧
      (c.arrive s .request).arrive s (.own .scheduled) =
        { c.arrive s .request with
          visits := (c.arrive s .request).visits ++ [.begun (.error .inFlight)] } ∧
      (∃ schedule : Schedule s, schedule.scene 0 = c.arrive s .request ∧
        ∃ n epoch, (schedule.scene n).Admits 0 (.ended epoch)) ∧
      ∃ response, (p.runErrand 1).afterErrand "POST" none 1 =
        (p.runErrand 1).finish (.response response) ∧ response.status = 409 := by
  intro s start c p
  have reached : c.Reached s := .start _ _ rfl rfl
  have free : ¬ c.Busy := fun h => by cases reached.orderly.inFlight_iff.2 h
  have reached' : (c.arrive s .request).Reached s := reached.step (.arrival .request)
  have busy : (c.arrive s .request).Busy :=
    reached'.orderly.inFlight_iff.1 (by decide +kernel)
  obtain ⟨-, -, -, -, admitted⟩ := one_at_a_time reached
  obtain ⟨-, -, refused, answered, -⟩ := one_at_a_time reached'
  obtain ⟨-, ⟨schedule, hstart, fair⟩, hends⟩ := admitted .request rfl free
  obtain ⟨-, -, refusal⟩ := answered p (by decide +kernel)
  obtain ⟨-, hanswer⟩ := refusal 1 rfl
  exact ⟨busy, refused (.own .scheduled) rfl busy, ⟨schedule, hstart, hends schedule hstart fair⟩,
    hanswer "POST" none⟩

end ContentSync.Rehearsal
