import ContentSync.Proofs.Engine.Display
import ContentSync.Rehearsal.Rounds

/-!
# What the server shows of its epochs

Every epoch goes through the same course of phases. The server shows the phase, whether an epoch runs,
and the last epoch, and what it shows fits together whenever it is asked.

* `Play.request_status` — the server shows the orchestrator;
* `phases_displayed` — the phases of every epoch, and what is shown meanwhile.
-/

set_option autoImplicit false

namespace ContentSync.Rehearsal

open Engine

/-- The server shows the orchestrator. -/
theorem Play.request_status (p : Play) (giveUpAfter : Option Nat) :
    p.request "GET" "/status" giveUpAfter =
      p.finish (.response ((Response.ok p.orchestrator.status).forMethod "GET")) := by
  have hroute : Route.of "GET" "/status" = .status := by decide +kernel
  simp only [request, hroute]

/-- **The phases of every epoch, and what is shown meanwhile.** Whatever is answered and whenever an
epoch is cancelled, it shows that it checks; when it has selected something, how many of the targets
have come in, one after another, and that it writes; then that it has failed, if it has; and then that
it notifies and that it is idle. Wherever it waits it has shown some phase and not that it is idle. So
whatever the triggers and the turns of their epochs, an epoch runs exactly while another phase is
shown, and while none runs the server shows the one that was let in last. -/
theorem phases_displayed {σ : Type} {s : Setup σ} {c : Scene σ} (watched : c.Watched s) :
    (∀ trigger t epoch, Run s.policy trigger t (.ended epoch) → Itinerary t epoch) ∧
    (∀ trigger t situation, Run s.policy trigger t situation → situation.AtRest →
      phases t ≠ [] ∧ .idle ∉ phases t) ∧
    c.Seen s ∧
    ∀ (p : Play) (giveUpAfter : Option Nat), p.request "GET" "/status" giveUpAfter =
      p.finish (.response ((Response.ok p.orchestrator.status).forMethod "GET")) :=
  ⟨fun _ _ _ run => run.itinerary, fun _ _ _ run hrest => run.phases_atRest hrest,
    watched.displays.seen, Play.request_status⟩

/-- An epoch is let in, has two turns, and is over because no versions are advertised. -/
theorem phases_displayed_unadvertised :
    let s : Setup Backstage := ⟨collaborators,
      { SyncPolicy.default with retry := { Retry.default with maxAttempts := 1 } }, .seconds 60⟩
    let rest (c : Scene Backstage) : Scene Backstage :=
      { c with env := { c.env with now := c.env.now + 1000, round := c.env.round + 1 } }
    let c : Scene Backstage :=
      ⟨⟨0, 0, false, 0, .create [], ⟨.create ⟨none, none⟩ false, []⟩⟩, false, [], []⟩
    let begun := c.arrive s .request
    let closed := (rest ((rest begun).turn s 0)).turn s 0
    begun.Seen s ∧ begun.env.orchestrator.phase = .checking ∧
      closed.Seen s ∧ closed.env.orchestrator.phase = .idle ∧
      closed.env.orchestrator.last.isSome = true := by
  intro s rest c begun closed
  have watched : c.Watched s := .start _ _ [] rfl rfl
  have hrest : ∀ {c : Scene Backstage}, c.Watched s → (rest c).Watched s := fun watched =>
    watched.step (.elsewhere _ rfl rfl) fun _ => ⟨rfl, rfl⟩
  have hbegun : begun.Watched s := watched.step (.arrival .request) nofun
  have hclosed : closed.Watched s :=
    (hrest ((hrest hbegun).step (.turn 0) nofun)).step (.turn 0) nofun
  obtain ⟨-, -, seen, -⟩ := phases_displayed hbegun
  obtain ⟨-, -, seen', -⟩ := phases_displayed hclosed
  exact ⟨seen, by decide +kernel, seen', by decide +kernel, by decide +kernel⟩

end ContentSync.Rehearsal
