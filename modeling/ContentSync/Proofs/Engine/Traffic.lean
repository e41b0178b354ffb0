import ContentSync.Proofs.Engine.Turns
import ContentSync.Proofs.Engine.Waiting

/-!
# Epochs that come and go

Triggers come in at any time, from the application itself and from requests to the server, and the
epochs that are let in have their turns in any order. One thing happens at a time.

* `Entry`, `Visit` — where a trigger comes from, and what becomes of it;
* `Scene` — the triggers so far, and everything that has been done for them;
* `Scene.arrive`, `Scene.turn`, `Scene.Step` — what happens next;
* `Scene.Orderly` — at most one epoch is under way, and what is done for one trigger is done before
  anything is done for a later one;
* `Scene.Step.orderly`, `Scene.Reached.orderly` — so it is whatever happens;
* `Scene.arrive_refused`, `Scene.arrive_ignored` — a trigger that is not let in changes nothing.
-/

set_option autoImplicit false

namespace ContentSync.Engine

variable {σ : Type}

/-! ## Scenes -/

/-- Where a trigger comes from. -/
inductive Entry where
  /-- The application starts an epoch, when it comes up or by its schedule. Once it has been shut
  down it does not any more. -/
  | own (trigger : Trigger)
  /-- A request to the server begins its epoch. -/
  | request

/-- The trigger of the epoch. -/
def Entry.trigger : Entry → Trigger
  | own trigger => trigger
  | request => .manual

/-- Whether a trigger is heeded, in an application that has been shut down or not. -/
def Entry.isHeeded (stopped : Bool) : Entry → Bool
  | own _ => !stopped
  | request => true

/-- What becomes of a trigger. -/
inductive Visit where
  | ignored
  | begun (standing : Except Failure Standing)

/-- The triggers so far, and what has been done for them. -/
structure Scene (σ : Type) where
  env : Env (Recorded σ)
  /-- The application has been shut down, which cancels its epochs. -/
  stopped : Bool
  /-- What has become of each trigger, in the order in which they have come in. -/
  visits : List Visit
  /-- What has been done with the collaborators, each time with the number of the trigger for which
  it was done. -/
  trace : List (Nat × Mark)

/-- Something that happens. -/
inductive Deed where
  /-- Time passes, players are looked up, events are delivered, and so on. -/
  | elsewhere
  | shutdown
  | arrival (entry : Entry)
  /-- The epoch of a trigger has its turn. -/
  | turn (n : Nat)

namespace Scene

/-- The epoch that has been let in for the trigger with a number. -/
def Admits (c : Scene σ) (n : Nat) (standing : Standing) : Prop :=
  c.visits[n]? = some (.begun (.ok standing))

/-- An epoch is under way. -/
def Busy (c : Scene σ) : Prop := ∃ n stage, c.Admits n (.under stage)

/-- Notes what has been done for a trigger. -/
def note (c : Scene σ) (n : Nat) (e : Env (Recorded σ)) : Scene σ :=
  { c with
    env := e
    trace := c.trace ++ (e.outside.marks.drop c.env.outside.marks.length).map (n, ·) }

/-- A trigger comes in. -/
def arrive (s : Setup σ) (c : Scene σ) (entry : Entry) : Scene σ :=
  if entry.isHeeded c.stopped then
    let (e, standing) := beginEpoch s.recorded c.stopped c.env entry.trigger
    { c.note c.visits.length e with visits := c.visits ++ [.begun standing] }
  else { c with visits := c.visits ++ [.ignored] }

/-- The epoch of a trigger has its turn. -/
def turn (s : Setup σ) (c : Scene σ) (n : Nat) : Scene σ :=
  match c.visits[n]? with
  | some (.begun (.ok standing)) =>
    let (e, standing) := standing.resume s.recorded c.stopped c.env
    { c.note n e with visits := c.visits.set n (.begun (.ok standing)) }
  | _ => c

/-- What happens next. Whatever happens elsewhere, only epochs take the place of the one epoch that
may run and free it, and only what they do is on record. -/
inductive Step (s : Setup σ) (c : Scene σ) : Deed → Scene σ → Prop
  | elsewhere (e : Env (Recorded σ))
    (inFlight_eq : e.orchestrator.inFlight = c.env.orchestrator.inFlight)
    (marks_eq : e.outside.marks = c.env.outside.marks) :
    Step s c .elsewhere { c with env := e }
  | shutdown : Step s c .shutdown { c with stopped := true }
  | arrival (entry : Entry) : Step s c (.arrival entry) (c.arrive s entry)
  | turn (n : Nat) : Step s c (.turn n) (c.turn s n)

/-- The scenes to which anything can lead from one in which no trigger has come in. -/
inductive Reached (s : Setup σ) : Scene σ → Prop
  | start (e : Env (Recorded σ)) (stopped : Bool) (free : e.orchestrator.inFlight = false)
    (fresh : e.outside.marks = []) : Reached s ⟨e, stopped, [], []⟩
  | step {c c' : Scene σ} {deed : Deed} (reached : Reached s c) (hs : c.Step s deed c') :
    Reached s c'

/-! ## One epoch at a time -/

/-- Epochs do not get into each other's way. -/
structure Orderly (s : Setup σ) (c : Scene σ) : Prop where
  /-- Epochs run on the clock, and are cancelled by nothing but a shutdown. -/
  clock : ∀ n standing, c.Admits n standing → ∃ trigger cancelled,
    OnClock s.recorded trigger cancelled standing ∧ (cancelled = true → c.stopped = true)
  /-- At most one epoch is under way. -/
  unique : ∀ m n stage stage', c.Admits m (.under stage) → c.Admits n (.under stage') → m = n
  inFlight_iff : c.env.orchestrator.inFlight = true ↔ c.Busy
  /-- Everything that is on record has been done for a trigger. -/
  noted : c.trace.map Prod.snd = c.env.outside.marks
  /-- What is done for one trigger is done before anything is done for a later one. -/
  ordered : c.trace.Pairwise fun a b => a.1 ≤ b.1
  /-- Something is done only for triggers whose epochs have been let in. -/
  owned : ∀ mark ∈ c.trace, ∃ standing, c.Admits mark.1 standing
  /-- Nothing has been done for a later trigger than the one whose epoch is under way. -/
  latest : ∀ n stage, c.Admits n (.under stage) → ∀ mark ∈ c.trace, mark.1 ≤ n

variable {s : Setup σ} {c c' : Scene σ}

theorem Admits.lt_length {n : Nat} {standing : Standing} (h : c.Admits n standing) :
    n < c.visits.length :=
  (List.getElem?_eq_some_iff.1 h).1

theorem Admits.inj {n : Nat} {standing standing' : Standing} (h : c.Admits n standing)
    (h' : c.Admits n standing') : standing = standing' := by
  have heq := Option.some.inj (h.symm.trans h')
  injection heq with heq
  exact Except.ok.inj heq

theorem Orderly.inFlight_eq_false (hc : c.Orderly s) (hfree : ¬ c.Busy) :
    c.env.orchestrator.inFlight = false :=
  Bool.eq_false_iff.2 fun h => hfree (hc.inFlight_iff.1 h)

/-- A scene in which the same epochs stand where they stood. -/
theorem Orderly.same (hc : c.Orderly s)
    (hadmits : ∀ n standing, c'.Admits n standing ↔ c.Admits n standing)
    (hstopped : c.stopped = true → c'.stopped = true)
    (hinFlight : c'.env.orchestrator.inFlight = c.env.orchestrator.inFlight)
    (hmarks : c'.env.outside.marks = c.env.outside.marks) (htrace : c'.trace = c.trace) :
    c'.Orderly s := by
  constructor
  case clock =>
    intro n standing h
    obtain ⟨trigger, cancelled, clock, hcancelled⟩ := hc.clock n standing ((hadmits ..).1 h)
    exact ⟨trigger, cancelled, clock, fun h => hstopped (hcancelled h)⟩
  case unique =>
    intro m n stage stage' h h'
    exact hc.unique m n stage stage' ((hadmits ..).1 h) ((hadmits ..).1 h')
  case inFlight_iff =>
    rw [hinFlight, hc.inFlight_iff]
    exact exists_congr fun n => exists_congr fun stage => (hadmits ..).symm
  case noted => rw [htrace, hmarks, hc.noted]
  case ordered =>
    rw [htrace]
    exact hc.ordered
  case owned =>
    intro mark hm
    rw [htrace] at hm
    obtain ⟨standing, h⟩ := hc.owned mark hm
    exact ⟨standing, (hadmits ..).2 h⟩
  case latest =>
    intro n stage h
    rw [htrace]
    exact hc.latest n stage ((hadmits ..).1 h)

/-- Nothing is noted where nothing has been done. -/
theorem note_env (n : Nat) : c.note n c.env = c := by
  simp [note]

theorem of_mem_note {n : Nat} {e : Env (Recorded σ)} {mark : Nat × Mark}
    (h : mark ∈ (c.note n e).trace) : mark ∈ c.trace ∨ mark.1 = n := by
  obtain h | h := List.mem_append.1 h
  · exact .inl h
  · obtain ⟨_, -, rfl⟩ := List.mem_map.1 h
    exact .inr rfl

/-- What is noted for the latest trigger comes after everything else. -/
theorem note_ordered {n : Nat} {e : Env (Recorded σ)}
    (ordered : c.trace.Pairwise fun a b => a.1 ≤ b.1) (latest : ∀ mark ∈ c.trace, mark.1 ≤ n) :
    (c.note n e).trace.Pairwise fun a b => a.1 ≤ b.1 := by
  refine List.pairwise_append.2 ⟨ordered, ?_, fun a ha b hb => ?_⟩
  · exact List.pairwise_map.2 (List.pairwise_of_forall fun _ _ => Nat.le_refl n)
  · obtain ⟨_, -, rfl⟩ := List.mem_map.1 hb
    exact latest a ha

/-- Everything that is new on the record is noted. -/
theorem note_noted {n : Nat} {e : Env (Recorded σ)}
    (noted : c.trace.map Prod.snd = c.env.outside.marks)
    (hmarks : c.env.outside.marks <+: e.outside.marks) :
    (c.note n e).trace.map Prod.snd = e.outside.marks := by
  obtain ⟨marks, hmarks⟩ := hmarks
  simp only [note, ← hmarks, List.drop_left, List.map_append, noted, List.map_map,
    Function.comp_def, List.map_id']

/-- An epoch that is let in or has its turn, while no other one is under way and nothing has been done
for a later trigger. -/
theorem Orderly.become (hc : c.Orderly s) {n : Nat} {standing : Standing}
    {e : Env (Recorded σ)} {visits : List Visit}
    (hfree : ∀ m stage, c.Admits m (.under stage) → m = n)
    (hlatest : ∀ mark ∈ c.trace, mark.1 ≤ n) (hothers : ∀ m, m ≠ n → visits[m]? = c.visits[m]?)
    (hself : visits[n]? = some (.begun (.ok standing)))
    (hclock : ∃ trigger cancelled, OnClock s.recorded trigger cancelled standing ∧
      (cancelled = true → c.stopped = true))
    (hinFlight : e.orchestrator.inFlight = standing.isUnder)
    (hmarks : c.env.outside.marks <+: e.outside.marks) :
    Orderly s { c.note n e with visits := visits } := by
  have hadmits : ∀ {m other}, m ≠ n →
      (Admits { c.note n e with visits := visits } m other ↔ c.Admits m other) := by
    intro m other hm
    unfold Admits
    rw [← hothers m hm]
  have hself : Admits { c.note n e with visits := visits } n standing := hself
  have hunder : ∀ {m stage}, Admits { c.note n e with visits := visits } m (.under stage) →
      m = n ∧ standing = .under stage := by
    intro m stage h
    by_cases hm : m = n
    · subst hm
      exact ⟨rfl, hself.inj h⟩
    · exact absurd (hfree m stage ((hadmits hm).1 h)) hm
  constructor
  case clock =>
    intro m other h
    by_cases hm : m = n
    · subst hm
      exact hself.inj h ▸ hclock
    · exact hc.clock m other ((hadmits hm).1 h)
  case unique =>
    intro m m' stage stage' h h'
    exact (hunder h).1.trans (hunder h').1.symm
  case inFlight_iff =>
    rw [show (c.note n e).env = e from rfl, hinFlight]
    constructor
    · intro h
      cases standing with
      | ended => cases h
      | under stage => exact ⟨n, stage, hself⟩
    · rintro ⟨m, stage, h⟩
      rw [(hunder h).2]
      rfl
  case noted => exact note_noted hc.noted hmarks
  case ordered => exact note_ordered hc.ordered hlatest
  case owned =>
    intro mark hm
    by_cases hn : mark.1 = n
    · exact ⟨standing, hn ▸ hself⟩
    · obtain ⟨other, h⟩ := hc.owned mark ((of_mem_note hm).resolve_right hn)
      exact ⟨other, (hadmits hn).2 h⟩
  case latest =>
    intro m stage h mark hm
    obtain ⟨rfl, -⟩ := hunder h
    obtain hm | hm := of_mem_note hm
    · exact hlatest mark hm
    · exact Nat.le_of_eq hm

/-! ## Arrivals -/

/-- A trigger for which no epoch is let in leaves the others where they are. -/
theorem admits_append {visit : Visit} (hv : ∀ standing, visit ≠ .begun (.ok standing)) (n : Nat)
    (standing : Standing) :
    (c.visits ++ [visit])[n]? = some (.begun (.ok standing)) ↔ c.Admits n standing := by
  unfold Admits
  rw [List.getElem?_append]
  split
  · rfl
  · rename_i hn
    rw [List.getElem?_eq_none (Nat.le_of_not_lt hn), List.getElem?_singleton]
    split
    · exact ⟨fun h => absurd (Option.some.inj h) (hv standing), by simp⟩
    · rfl

/-- A trigger that is heeded leads to whatever becomes of its epoch. -/
theorem arrive_heeded {entry : Entry} {e' : Env (Recorded σ)} {standing : Except Failure Standing}
    (heeded : entry.isHeeded c.stopped = true)
    (hbegin : beginEpoch s.recorded c.stopped c.env entry.trigger = (e', standing)) :
    c.arrive s entry =
      { c.note c.visits.length e' with visits := c.visits ++ [.begun standing] } := by
  unfold arrive
  rw [if_pos heeded, hbegin]

/-- **While an epoch is under way, a trigger is refused and changes nothing.** -/
theorem arrive_refused (hc : c.Orderly s) {entry : Entry}
    (heeded : entry.isHeeded c.stopped = true) (busy : c.Busy) :
    c.arrive s entry = { c with visits := c.visits ++ [.begun (.error .inFlight)] } := by
  rw [arrive_heeded heeded (beginEpoch_inFlight (hc.inFlight_iff.2 busy)), note_env]

/-- A trigger of an application that has been shut down changes nothing. -/
theorem arrive_ignored {entry : Entry} (unheeded : entry.isHeeded c.stopped = false) :
    c.arrive s entry = { c with visits := c.visits ++ [.ignored] } := by
  unfold arrive
  rw [if_neg (by simp [unheeded])]

/-- **While no epoch is under way, the next one is let in.** -/
theorem arrive_admitted (hc : c.Orderly s) {entry : Entry}
    (heeded : entry.isHeeded c.stopped = true) (free : ¬ c.Busy) :
    ∃ standing, (c.arrive s entry).visits = c.visits ++ [.begun (.ok standing)] ∧
      (c.arrive s entry).Orderly s := by
  obtain ⟨e₀, e', standing, hbegin, hrun, hinFlight, hmarks⟩ :=
    beginEpoch_free s c.stopped entry.trigger (hc.inFlight_eq_false free)
  rw [arrive_heeded heeded hbegin]
  refine ⟨standing, rfl, hc.become ?_ ?_ ?_ ?_ ⟨entry.trigger, c.stopped, .begun hrun, id⟩
    hinFlight hmarks⟩
  · intro m stage h
    exact absurd ⟨m, stage, h⟩ free
  · intro mark hm
    obtain ⟨_, h⟩ := hc.owned mark hm
    exact Nat.le_of_lt h.lt_length
  · intro m hm
    rw [List.getElem?_append]
    split
    · rfl
    · rename_i hlt
      rw [List.getElem?_eq_none (Nat.le_of_not_lt hlt), List.getElem?_eq_none]
      simp only [List.length_singleton]
      omega
  · simp

/-! ## Turns -/

theorem turn_of_admits {n : Nat} {standing standing' : Standing} {e' : Env (Recorded σ)}
    (h : c.Admits n standing)
    (heq : standing.resume s.recorded c.stopped c.env = (e', standing')) :
    c.turn s n = { c.note n e' with visits := c.visits.set n (.begun (.ok standing')) } := by
  unfold Admits at h
  simp only [turn, h, heq]

/-- An epoch that is over does nothing. -/
theorem turn_ended {n : Nat} {epoch : Epoch} (h : c.Admits n (.ended epoch)) :
    c.turn s n = c := by
  have hset : c.visits.set n (.begun (.ok (.ended epoch))) = c.visits := by
    obtain ⟨hlt, hget⟩ := List.getElem?_eq_some_iff.1 h
    rw [← hget, List.set_getElem_self]
  rw [turn_of_admits h rfl, note_env, hset]

theorem turn_of_not_admits {n : Nat} (h : ∀ standing, ¬ c.Admits n standing) : c.turn s n = c := by
  unfold turn
  split
  · rename_i standing heq
    exact absurd heq (h standing)
  · rfl

theorem Orderly.turn (hc : c.Orderly s) (n : Nat) : (c.turn s n).Orderly s := by
  by_cases hadmits : ∃ standing, c.Admits n standing
  · obtain ⟨standing, h⟩ := hadmits
    cases standing with
    | ended epoch =>
      rw [turn_ended h]
      exact hc
    | under stage =>
      cases hresume : stage.resume s.recorded c.stopped c.env with
      | mk e' standing =>
        have hleaves := Stage.resume_leaves hresume
        have hinFlight : e'.orchestrator.inFlight = standing.isUnder := by
          rw [hleaves.inFlight_eq, hc.inFlight_iff.2 ⟨n, stage, h⟩, Bool.and_true]
        obtain ⟨trigger, cancelled, clock, hcancelled⟩ := hc.clock n _ h
        rw [turn_of_admits h hresume]
        exact hc.become (fun m stage' h' => hc.unique m n stage' stage h' h) (hc.latest n stage h)
          (fun m hm => List.getElem?_set_ne (Ne.symm hm)) (List.getElem?_set_self h.lt_length)
          ⟨trigger, c.stopped, clock.resumed hcancelled hresume, id⟩ hinFlight hleaves.marks
  · rw [turn_of_not_admits fun standing h => hadmits ⟨standing, h⟩]
    exact hc

/-! ## Whatever happens -/

/-- **Whatever happens next, epochs do not get into each other's way.** -/
theorem Step.orderly {deed : Deed} (hs : c.Step s deed c') (hc : c.Orderly s) : c'.Orderly s := by
  cases hs with
  | elsewhere e inFlight_eq marks_eq => exact hc.same (fun _ _ => Iff.rfl) id inFlight_eq marks_eq rfl
  | shutdown => exact hc.same (fun _ _ => Iff.rfl) (fun _ => rfl) rfl rfl rfl
  | turn n => exact hc.turn n
  | arrival entry =>
    cases heeded : entry.isHeeded c.stopped with
    | false =>
      rw [arrive_ignored heeded]
      exact hc.same (admits_append (by simp)) id rfl rfl rfl
    | true =>
      by_cases busy : c.Busy
      · rw [arrive_refused hc heeded busy]
        exact hc.same (admits_append (by simp)) id rfl rfl rfl
      · obtain ⟨_, -, h⟩ := arrive_admitted hc heeded busy
        exact h

/-- **Whatever has happened, epochs have not got into each other's way.** -/
theorem Reached.orderly (reached : c.Reached s) : c.Orderly s := by
  induction reached with
  | start e stopped free fresh =>
    constructor
    case clock => simp [Admits]
    case unique => simp [Admits]
    case inFlight_iff => simp [free, Busy, Admits]
    case noted => simp [fresh]
    case ordered => exact .nil
    case owned => simp
    case latest => simp
  | step _ hs ih => exact hs.orderly ih

end Scene

end ContentSync.Engine
