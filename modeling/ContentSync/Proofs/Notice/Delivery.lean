import ContentSync.Notice.Dispatcher
import Mathlib.Data.List.Basic

/-!
# Delivery, step by step

Events are emitted while others are delivered, sinks fail and recover, and the one who delivers may be
dropped. Here delivery is taken apart into steps between which anything else may happen.

* `Post` — a mailbox, the one who delivers from it, and an account of all that was emitted and taken;
* `PostStep`, `Post.after` — what happens, and the post after a history;
* `Post.Sound`, `Post.sound_after` — every sink is handed what is taken from the queue, once and in
  order, and nothing that was accepted gets lost while somebody delivers;
* `Post.dispatch_course`, `Post.drain_course` — `Mailbox.dispatch` and `Mailbox.drain` are what is done
  without interruption;
* `Post.Delivers`, `Post.delivers_after` — what can be told of a post after any history.
-/

set_option autoImplicit false

namespace ContentSync

/-- What the one who delivers is doing. -/
inductive Duty where
  | free
  /-- Delivering what is queued. So many events have been delivered. -/
  | dispatching (count : Nat)
  /-- Delivering until nobody may emit events any more. -/
  | running
  /-- Dropped, or at the end of a run. -/
  | gone
  deriving DecidableEq

namespace Duty

/-- Somebody is delivering. -/
def isDelivering : Duty → Bool
  | dispatching _ | running => true
  | free | gone => false

/-- More events have been delivered. -/
def counted (d : Duty) (more : Nat) : Duty :=
  match d with
  | dispatching count => dispatching (count + more)
  | d => d

end Duty

/-- A mailbox and the one who delivers from it. -/
structure Post where
  mailbox : Mailbox
  duty : Duty
  /-- The event that is being handed to the sinks, and how many of them have been handed it. -/
  inHand : Option (Event × Nat)
  /-- Everything that was emitted. -/
  offered : List Event
  /-- Everything that was emitted while there was somebody to deliver. -/
  accepted : List Event
  /-- Everything that was taken from the queue. -/
  taken : List Event
  /-- How many events have been queued since the last dispatch. -/
  since : Nat

/-- Something that happens to the post. -/
inductive PostStep where
  | emit (e : Event)
  /-- Nobody will emit events any more. -/
  | stopEmitting
  /-- The one who delivers is dropped. -/
  | drop
  /-- A sink takes to accepting or refusing other events. -/
  | change (n : Nat) (deliver : Event → Except Failure Unit)
  | beginDispatch
  | beginRun
  /-- The next event is taken from the queue. -/
  | take
  /-- The event is handed to the next sink, or has been handed to all. -/
  | hand
  | endDispatch
  | endRun

namespace Post

/-- The post for some sinks, with nothing emitted. -/
def create (sinks : List Sink) : Post := ⟨.create sinks, .free, none, [], [], [], 0⟩

/-- What a dispatch returns that can end now. -/
def returned? (p : Post) : Option Nat :=
  match p.duty, p.inHand, p.mailbox.queue with
  | .dispatching count, none, [] => some count
  | _, _, _ => none

/-- A run can end now. -/
def runIsOver (p : Post) : Bool :=
  p.duty = .running && p.inHand.isNone && p.mailbox.queue.isEmpty && !p.mailbox.emitting

/-- Somebody emits an event, if there is anybody. -/
def emit (p : Post) (e : Event) : Post :=
  if p.mailbox.emitting then
    let (queued, mailbox) := p.mailbox.emit e
    { p with
      mailbox := mailbox
      offered := p.offered ++ [e]
      accepted := if queued then p.accepted ++ [e] else p.accepted
      since := if queued then p.since + 1 else p.since }
  else p

/-- Takes up a duty, if there is none yet. -/
def begin (p : Post) (d : Duty) : Post := if p.duty = .free then { p with duty := d } else p

/-- Takes the next event from the queue, if none is being handed out. -/
def take (p : Post) : Post :=
  match p.duty.isDelivering, p.inHand, p.mailbox.queue with
  | true, none, e :: rest =>
    { p with
      mailbox := { p.mailbox with queue := rest }
      inHand := some (e, 0)
      taken := p.taken ++ [e] }
  | _, _, _ => p

/-- Hands the event to the next sink. When there is none left it has been delivered. -/
def hand (p : Post) : Post :=
  match p.duty.isDelivering, p.inHand with
  | true, some (e, n) =>
    if n < p.mailbox.sinks.length then
      { p with
        mailbox := { p.mailbox with sinks := p.mailbox.sinks.modify n (·.hand e) }
        inHand := some (e, n + 1) }
    else { p with inHand := none, duty := p.duty.counted 1 }
  | _, _ => p

/-- The one who delivers is gone. -/
def leave (p : Post) : Post := { p with mailbox := p.mailbox.stopListening, duty := .gone }

/-- A sink takes to accepting or refusing other events. -/
def change (p : Post) (n : Nat) (deliver : Event → Except Failure Unit) : Post :=
  let sinks := p.mailbox.sinks.modify n fun s => { s with deliver := deliver }
  { p with mailbox := { p.mailbox with sinks := sinks } }

/-- Ends a dispatch that can end, and forgets how many events had been queued. -/
def endDispatch (p : Post) : Post :=
  if p.returned?.isSome then { p with duty := .free, since := 0 } else p

/-- Ends a run that can end. -/
def endRun (p : Post) : Post := if p.runIsOver then p.leave else p

def step (p : Post) : PostStep → Post
  | .emit e => p.emit e
  | .stopEmitting => { p with mailbox := p.mailbox.stopEmitting }
  | .drop => p.leave
  | .change n deliver => p.change n deliver
  | .beginDispatch => p.begin (.dispatching 0)
  | .beginRun => p.begin .running
  | .take => p.take
  | .hand => p.hand
  | .endDispatch => p.endDispatch
  | .endRun => p.endRun

/-- The post after a history. -/
def run (p : Post) (history : List PostStep) : Post := history.foldl step p

def after (sinks : List Sink) (history : List PostStep) : Post := (create sinks).run history

/-! ## What is never lost or repeated -/

/-- What a sink has been handed: what was taken from the queue, but for the event that is being handed
out, if it is not the sink's turn yet. -/
def received (p : Post) (i : Nat) : List Event :=
  match p.inHand with
  | some (_, n) => if i < n then p.taken else p.taken.dropLast
  | none => p.taken

/-- How many events have been queued but not counted. -/
def pending (p : Post) : Nat := p.inHand.toList.length + p.mailbox.queue.length

/-- Nothing is lost or repeated. -/
structure Sound (sinks : List Sink) (p : Post) : Prop where
  listening_iff : p.mailbox.listening = true ↔ p.duty ≠ .gone
  /-- Nothing is accepted that was not emitted, and nothing is left out before the end. -/
  accepted : p.accepted <+: p.offered
  /-- Nothing is taken that was not accepted, and nothing is left out or taken before its turn. -/
  taken : p.taken <+: p.accepted
  /-- While there is somebody to deliver, everything that was emitted was accepted, and was taken or is
  queued. -/
  complete : p.duty ≠ .gone → p.accepted = p.offered ∧ p.accepted = p.taken ++ p.mailbox.queue
  /-- Every sink has been handed what was taken. -/
  handed : ∀ i, p.mailbox.sinks[i]?.map (·.handed) = sinks[i]?.map (·.handed ++ p.received i)
  inHand : ∀ e n, p.inHand = some (e, n) → p.taken.getLast? = some e
  free : p.duty = .free → p.inHand = none ∧ p.pending = p.since
  dispatching : ∀ count, p.duty = .dispatching count → count + p.pending = p.since

variable {sinks : List Sink} {p : Post}

theorem sound_create (sinks : List Sink) : (create sinks).Sound sinks where
  listening_iff := by simp [create, Mailbox.create]
  accepted := List.prefix_rfl
  taken := List.prefix_rfl
  complete _ := ⟨rfl, rfl⟩
  handed i := by simp [create, Mailbox.create, received]
  inHand := nofun
  free _ := ⟨rfl, rfl⟩
  dispatching := nofun

/-- **What is emitted is queued**, or lost when there is nobody to deliver. -/
theorem Sound.emit (h : p.Sound sinks) (e : Event) : (p.emit e).Sound sinks := by
  unfold Post.emit
  split
  case isFalse => exact h
  cases hlistening : p.mailbox.listening with
  | false =>
    have hgone : p.duty = .gone := by
      by_contra hne
      rw [h.listening_iff.2 hne] at hlistening
      cases hlistening
    simp only [Mailbox.emit, hlistening]
    exact
      { h with
        accepted := h.accepted.trans (List.prefix_append _ _)
        complete := fun hne => absurd hgone hne }
  | true =>
    obtain ⟨heq, hqueue⟩ := h.complete (h.listening_iff.1 hlistening)
    simp only [Mailbox.emit, hlistening, if_true]
    exact
      { h with
        listening_iff := by simpa [hlistening] using h.listening_iff
        accepted := by simp only [heq, List.prefix_rfl]
        taken := h.taken.trans (List.prefix_append _ _)
        complete := fun _ => ⟨by rw [heq], by simp [hqueue]⟩
        free := fun hfree => by
          obtain ⟨hhand, hpending⟩ := h.free hfree
          refine ⟨hhand, ?_⟩
          simp only [pending, List.length_append, List.length_singleton] at hpending ⊢
          omega
        dispatching := fun count hcount => by
          have hpending := h.dispatching count hcount
          simp only [pending, List.length_append, List.length_singleton] at hpending ⊢
          omega }

/-- **An event is taken from the queue.** -/
theorem Sound.take (h : p.Sound sinks) : p.take.Sound sinks := by
  unfold Post.take
  split
  case h_2 => exact h
  case h_1 e rest hduty hhand hqueue =>
  have hne : p.duty ≠ .gone := by
    rintro hgone
    rw [hgone] at hduty
    cases hduty
  obtain ⟨heq, htaken⟩ := h.complete hne
  rw [hqueue] at htaken
  have htaken : p.accepted = p.taken ++ [e] ++ rest := by simp [htaken]
  exact
    { h with
      taken := htaken ▸ List.prefix_append _ _
      complete := fun _ => ⟨heq, htaken⟩
      handed := fun i => by
        have hreceived := h.handed i
        simpa [received, hhand] using hreceived
      inHand := fun e' n heq => by
        cases heq
        exact List.getLast?_concat
      free := fun hfree => by
        rw [hfree] at hduty
        cases hduty
      dispatching := fun count hcount => by
        have hpending := h.dispatching count hcount
        simp only [pending, hhand, hqueue, Option.toList_none, Option.toList_some, List.length_nil,
          List.length_cons] at hpending ⊢
        omega }

/-- The next sink is handed the event. -/
theorem Sound.handNext (h : p.Sound sinks) {e : Event} {n : Nat}
    (hduty : p.duty.isDelivering = true) (hhand : p.inHand = some (e, n)) :
    Sound sinks { p with
      mailbox := { p.mailbox with sinks := p.mailbox.sinks.modify n (·.hand e) }
      inHand := some (e, n + 1) } := by
  have hlast := h.inHand e n hhand
  have htaken : p.taken.dropLast ++ [e] = p.taken := List.dropLast_append_getLast? e hlast
  refine
    { h with
      handed := fun i => ?_
      inHand := fun e' n' heq => ?_
      free := fun hfree => ?_
      dispatching := fun count hcount => ?_ }
  · have hreceived := h.handed i
    simp only [received, hhand] at hreceived ⊢
    rw [List.getElem?_modify]
    by_cases hi : n = i
    · -- The sink whose turn it is had been handed all but the last one that was taken.
      subst hi
      rw [if_neg (Nat.lt_irrefl _)] at hreceived
      rw [if_pos (Nat.lt_succ_self _)]
      have hmore := congrArg (Option.map (· ++ [e])) hreceived
      simpa [Function.comp_def, Sink.handed_hand, htaken] using hmore
    · have hiff : i < n + 1 ↔ i < n := by omega
      simpa [hi, hiff] using hreceived
  · cases heq
    exact hlast
  · rw [hfree] at hduty
    cases hduty
  · have hpending := h.dispatching count hcount
    simpa [pending, hhand] using hpending

/-- All of the sinks have been handed the event. -/
theorem Sound.handDone (h : p.Sound sinks) {e : Event} {n : Nat}
    (hduty : p.duty.isDelivering = true) (hhand : p.inHand = some (e, n))
    (hall : p.mailbox.sinks.length ≤ n) :
    Sound sinks { p with inHand := none, duty := p.duty.counted 1 } := by
  have hcounted : p.duty.counted 1 ≠ .gone ∧ p.duty.counted 1 ≠ .free ∧ p.duty ≠ .gone := by
    cases hd : p.duty <;> simp_all [Duty.counted, Duty.isDelivering]
  refine
    { h with
      listening_iff := iff_of_true (h.listening_iff.2 hcounted.2.2) hcounted.1
      complete := fun _ => h.complete hcounted.2.2
      handed := fun i => ?_
      inHand := nofun
      free := fun hfree => absurd hfree hcounted.2.1
      dispatching := fun count hcount => ?_ }
  · have hreceived := h.handed i
    simp only [received, hhand] at hreceived ⊢
    by_cases hi : i < n
    · rwa [if_pos hi] at hreceived
    · -- There is no such sink, neither now nor at the start.
      have hnone : p.mailbox.sinks[i]? = none := List.getElem?_eq_none (by omega)
      rw [hnone] at hreceived ⊢
      cases hsink : sinks[i]? with
      | none => rfl
      | some s => simp [hsink] at hreceived
  · cases hd : p.duty with
    | dispatching m =>
      have hpending := h.dispatching m hd
      simp only [hd, Duty.counted, Duty.dispatching.injEq] at hcount
      simp only [pending, hhand, Option.toList_some, Option.toList_none, List.length_singleton,
        List.length_nil] at hpending ⊢
      omega
    | running | free | gone => simp [hd, Duty.counted] at hcount

/-- **The next sink is handed the event**, or all of them have been handed it. -/
theorem Sound.hand (h : p.Sound sinks) : p.hand.Sound sinks := by
  unfold Post.hand
  split
  case h_2 => exact h
  case h_1 e n hduty hhand =>
  split
  · exact h.handNext hduty hhand
  · rename_i hall
    exact h.handDone hduty hhand (Nat.le_of_not_lt hall)

theorem Sound.leave (h : p.Sound sinks) : p.leave.Sound sinks :=
  { h with
    listening_iff := by simp [Post.leave, Mailbox.stopListening]
    complete := fun hne => absurd rfl hne
    free := nofun
    dispatching := nofun }

theorem Sound.change (h : p.Sound sinks) (n : Nat) (deliver : Event → Except Failure Unit) :
    (p.change n deliver).Sound sinks := by
  refine { h with handed := fun i => ?_ }
  have hsame : (p.change n deliver).mailbox.sinks[i]?.map (·.handed) =
      p.mailbox.sinks[i]?.map (·.handed) := by
    simp only [Post.change, List.getElem?_modify, Option.map_eq_map, Option.map_map]
    congr 1
    funext s
    simp only [Function.comp_apply]
    split <;> rfl
  exact hsame.trans (h.handed i)

theorem Sound.begin (h : p.Sound sinks) {d : Duty} (hd : d = .dispatching 0 ∨ d = .running) :
    (p.begin d).Sound sinks := by
  unfold Post.begin
  split
  case isFalse => exact h
  case isTrue hfree =>
  obtain ⟨hhand, hpending⟩ := h.free hfree
  have hne : p.duty ≠ .gone := by rw [hfree]; nofun
  refine
    { h with
      listening_iff := iff_of_true (h.listening_iff.2 hne) (by obtain rfl | rfl := hd <;> nofun)
      complete := fun _ => h.complete hne
      free := fun hd' => ?_
      dispatching := fun count hcount => ?_ }
  · obtain rfl | rfl := hd <;> cases hd'
  · obtain rfl | rfl := hd <;> cases hcount
    rw [Nat.zero_add]
    exact hpending

/-- A dispatch that returns has counted all that was queued. -/
theorem Sound.returned (h : p.Sound sinks) {count : Nat} (hreturned : p.returned? = some count) :
    p.duty = .dispatching count ∧ p.inHand = none ∧ p.mailbox.queue = [] ∧ count = p.since := by
  unfold returned? at hreturned
  split at hreturned
  · rename_i m hduty hhand hqueue
    cases hreturned
    have hpending := h.dispatching count hduty
    simp only [pending, hhand, hqueue, Option.toList_none, List.length_nil] at hpending
    exact ⟨hduty, hhand, hqueue, hpending⟩
  · contradiction

theorem Sound.endDispatch (h : p.Sound sinks) : p.endDispatch.Sound sinks := by
  unfold Post.endDispatch
  split
  case isFalse => exact h
  case isTrue hsome =>
  obtain ⟨count, hreturned⟩ := Option.isSome_iff_exists.1 hsome
  obtain ⟨hduty, hhand, hqueue, -⟩ := h.returned hreturned
  have hne : p.duty ≠ .gone := by rw [hduty]; nofun
  exact
    { h with
      listening_iff := iff_of_true (h.listening_iff.2 hne) nofun
      complete := fun _ => h.complete hne
      free := fun _ => ⟨hhand, by simp [pending, hhand, hqueue]⟩
      dispatching := nofun }

theorem Sound.endRun (h : p.Sound sinks) : p.endRun.Sound sinks := by
  unfold Post.endRun
  split
  · exact h.leave
  · exact h

/-- **Nothing is lost or repeated in any step.** -/
theorem Sound.step (h : p.Sound sinks) (a : PostStep) : (p.step a).Sound sinks := by
  cases a with
  | emit e => exact h.emit e
  | stopEmitting => exact { h with }
  | drop => exact h.leave
  | change n deliver => exact h.change n deliver
  | beginDispatch => exact h.begin (.inl rfl)
  | beginRun => exact h.begin (.inr rfl)
  | take => exact h.take
  | hand => exact h.hand
  | endDispatch => exact h.endDispatch
  | endRun => exact h.endRun

theorem Sound.run (h : p.Sound sinks) (history : List PostStep) : (p.run history).Sound sinks := by
  induction history generalizing p with
  | nil => exact h
  | cons a history ih => exact ih (h.step a)

/-- **Nothing is ever lost or repeated.** -/
theorem sound_after (sinks : List Sink) (history : List PostStep) :
    (after sinks history).Sound sinks :=
  (sound_create sinks).run history

/-! ## Delivery without interruption -/

theorem run_append (p : Post) (a b : List PostStep) : p.run (a ++ b) = (p.run a).run b :=
  List.foldl_append

theorem after_append (sinks : List Sink) (history : List PostStep) (a : PostStep) :
    after sinks (history ++ [a]) = (after sinks history).step a :=
  run_append ..

theorem run_cons (p : Post) (a : PostStep) (b : List PostStep) : p.run (a :: b) = (p.step a).run b :=
  rfl

/-- The steps in which all that is queued is delivered. -/
def course (p : Post) : List PostStep :=
  p.mailbox.queue.flatMap fun _ => .take :: List.replicate (p.mailbox.sinks.length + 1) .hand

/-- Nothing is emitted in any other step. -/
theorem offered_step {a : PostStep} (ha : ∀ e, a ≠ .emit e) : (p.step a).offered = p.offered := by
  cases a with
  | emit e => exact absurd rfl (ha e)
  | stopEmitting | drop | change => rfl
  | beginDispatch | beginRun =>
    simp only [step, begin]
    split <;> rfl
  | take =>
    simp only [step, take]
    split <;> rfl
  | hand =>
    simp only [step, hand]
    split
    · split <;> rfl
    · rfl
  | endDispatch =>
    simp only [step, endDispatch]
    split <;> rfl
  | endRun =>
    simp only [step, endRun]
    split <;> rfl

theorem modify_length (before : List Sink) (s : Sink) (rest : List Sink) (f : Sink → Sink) :
    (before ++ s :: rest).modify before.length f = before ++ f s :: rest := by
  induction before with
  | nil => rfl
  | cons b before ih => simp [ih]

/-- The event is handed to the rest of the sinks. -/
theorem run_hand {e : Event} {before rest : List Sink} (hduty : p.duty.isDelivering = true)
    (hhand : p.inHand = some (e, before.length)) (hsinks : p.mailbox.sinks = before ++ rest) :
    p.run (List.replicate rest.length .hand) =
      { p with
        mailbox := { p.mailbox with sinks := before ++ rest.map (·.hand e) }
        inHand := some (e, p.mailbox.sinks.length) } := by
  -- By induction on the sinks that are left; those before have been handed the event.
  induction rest generalizing p before with
  | nil =>
    rw [List.append_nil] at hsinks
    simp only [List.length_nil, List.replicate_zero, List.map_nil, List.append_nil, run,
      List.foldl_nil, hsinks, ← hhand]
    rw [← hsinks]
  | cons s rest ih =>
    have hlt : before.length < p.mailbox.sinks.length := by simp [hsinks]
    have hstep : p.step .hand =
        { p with
          mailbox := { p.mailbox with sinks := (before ++ [s.hand e]) ++ rest }
          inHand := some (e, (before ++ [s.hand e]).length) } := by
      simp only [step, hand, hduty, hhand, if_pos hlt]
      simp [hsinks, modify_length]
    rw [List.length_cons, List.replicate_succ, run_cons, hstep]
    refine Eq.trans (@ih _ (before ++ [s.hand e]) hduty rfl rfl) ?_
    simp [hsinks]

/-- **An event is delivered** to every sink. -/
theorem run_deliver {e : Event} {rest : List Event} (hduty : p.duty.isDelivering = true)
    (hhand : p.inHand = none) (hqueue : p.mailbox.queue = e :: rest) :
    p.run (.take :: List.replicate (p.mailbox.sinks.length + 1) .hand) =
      { p with
        mailbox := { p.mailbox with sinks := Mailbox.fanOut p.mailbox.sinks e, queue := rest }
        taken := p.taken ++ [e]
        duty := p.duty.counted 1 } := by
  have htake : p.step .take =
      { p with
        mailbox := { p.mailbox with queue := rest }
        inHand := some (e, 0)
        taken := p.taken ++ [e] } := by
    simp only [step, take, hduty, hhand, hqueue]
  have hsinks := @run_hand (p.step .take) e [] p.mailbox.sinks (by simpa [htake] using hduty)
    (by simp [htake]) (by simp [htake])
  rw [run_cons, List.replicate_succ', run_append, hsinks, htake]
  simp [run, step, hand, hduty, hhand, Mailbox.fanOut]

/-- **All that is queued is delivered** to every sink. -/
theorem run_course (hduty : p.duty.isDelivering = true) (hhand : p.inHand = none) :
    p.run p.course =
      { p with
        mailbox := p.mailbox.dispatch.2
        taken := p.taken ++ p.mailbox.queue
        duty := p.duty.counted p.mailbox.queue.length } := by
  -- By induction on the queue, from which the first event is taken and delivered.
  generalize hqueue : p.mailbox.queue = queue
  induction queue generalizing p with
  | nil =>
    obtain ⟨⟨sinks, queue, listening, emitting⟩, duty, inHand, offered, accepted, taken, since⟩ := p
    obtain rfl : queue = [] := hqueue
    have hsame : duty.counted 0 = duty := by cases duty <;> rfl
    simp [course, run, Mailbox.dispatch, hsame]
  | cons e rest ih =>
    have hfirst := run_deliver hduty hhand hqueue
    have hcourse : p.course = (.take :: List.replicate (p.mailbox.sinks.length + 1) .hand) ++
        course (p.run (.take :: List.replicate (p.mailbox.sinks.length + 1) .hand)) := by
      rw [hfirst]
      simp [course, hqueue, Mailbox.fanOut]
    have hdelivering : (p.duty.counted 1).isDelivering = true := by
      cases hd : p.duty <;> simp_all [Duty.counted, Duty.isDelivering]
    have hmore : (p.duty.counted 1).counted rest.length = p.duty.counted (rest.length + 1) := by
      cases p.duty with
      | dispatching count => simp only [Duty.counted, Nat.add_assoc, Nat.add_comm 1]
      | free | running | gone => rfl
    rw [hcourse, run_append, hfirst]
    refine Eq.trans (@ih _ hdelivering hhand rfl) ?_
    simp [Mailbox.dispatch, hqueue, hmore]

/-- **A dispatch without interruption** does what `Mailbox.dispatch` does, and returns its number. -/
theorem dispatch_course (hfree : p.duty = .free) (hhand : p.inHand = none) :
    ((p.begin (.dispatching 0)).run p.course).returned? = some p.mailbox.dispatch.1 ∧
      (p.run (.beginDispatch :: (p.course ++ [.endDispatch]))).mailbox = p.mailbox.dispatch.2 ∧
      (p.run (.beginDispatch :: (p.course ++ [.endDispatch]))).duty = .free := by
  have hbegin : p.begin (.dispatching 0) = { p with duty := .dispatching 0 } := by
    rw [begin, if_pos hfree]
  have hrun := @run_course { p with duty := .dispatching 0 } rfl hhand
  have hcourse : course { p with duty := .dispatching 0 } = p.course := rfl
  rw [hcourse] at hrun
  have hreturned : ((p.begin (.dispatching 0)).run p.course).returned? =
      some p.mailbox.dispatch.1 := by
    rw [hbegin, hrun]
    simp [returned?, Duty.counted, Mailbox.dispatch, hhand]
  have hend : p.run (.beginDispatch :: (p.course ++ [.endDispatch])) =
      ((p.begin (.dispatching 0)).run p.course).endDispatch := by
    rw [run_cons, run_append]
    rfl
  rw [hend, endDispatch, hreturned]
  simp [hbegin, hrun]

/-- **A run without interruption** does what `Mailbox.drain` does: it ends when nobody may emit
events any more, and otherwise it is dropped while it waits for more. -/
theorem drain_course (hfree : p.duty = .free) (hhand : p.inHand = none) :
    ((p.begin .running).run p.course).runIsOver = p.mailbox.drain.1 ∧
      (p.run (.beginRun :: (p.course ++
        [if p.mailbox.emitting then .drop else .endRun]))).mailbox = p.mailbox.drain.2 := by
  have hbegin : p.begin .running = { p with duty := .running } := by rw [begin, if_pos hfree]
  have hrun := @run_course { p with duty := .running } rfl hhand
  have hcourse : course { p with duty := .running } = p.course := rfl
  rw [hcourse] at hrun
  have hover : ((p.begin .running).run p.course).runIsOver = p.mailbox.drain.1 := by
    rw [hbegin, hrun]
    simp [runIsOver, Duty.counted, Mailbox.dispatch, Mailbox.drain, hhand]
  refine ⟨hover, ?_⟩
  have hend : p.run (.beginRun :: (p.course ++ [if p.mailbox.emitting then .drop else .endRun])) =
      ((p.begin .running).run p.course).step (if p.mailbox.emitting then .drop else .endRun) := by
    rw [run_cons, run_append]
    rfl
  rw [hend]
  cases hemitting : p.mailbox.emitting with
  | true => simp [step, leave, hbegin, hrun, Mailbox.drain]
  | false =>
    rw [Mailbox.drain, hemitting] at hover
    simp only [Bool.false_eq_true, if_false, step, endRun]
    rw [if_pos (by simpa using hover)]
    simp [leave, hbegin, hrun, Mailbox.drain]

/-! ## What can be told of a post -/

/-- An event is emitted in vain exactly when the one who delivers is gone. -/
theorem Sound.emit_eq_false_iff (h : p.Sound sinks) (e : Event) :
    (p.mailbox.emit e).1 = false ↔ p.duty = .gone := by
  have hlistening := not_congr h.listening_iff
  rw [Bool.not_eq_true, not_not] at hlistening
  rw [← hlistening, Mailbox.emit]
  split <;> simp_all

/-- With nothing in the queue, everything that was emitted was taken. -/
theorem Sound.taken_eq (h : p.Sound sinks) (hne : p.duty ≠ .gone) (hqueue : p.mailbox.queue = []) :
    p.taken = p.offered := by
  obtain ⟨heq, htaken⟩ := h.complete hne
  rw [← heq, htaken, hqueue, List.append_nil]

/-- A run that is over. -/
theorem over_of_runIsOver (hover : p.runIsOver = true) :
    p.duty = .running ∧ p.inHand = none ∧ p.mailbox.queue = [] ∧ p.mailbox.emitting = false := by
  simpa [runIsOver, and_assoc] using hover

/-- **A run goes on** until it is dropped, or is over. -/
theorem running_step (hduty : p.duty = .running) (a : PostStep) :
    (p.step a).duty = .running ∨ a = .drop ∨ a = .endRun ∧ p.runIsOver = true := by
  cases a with
  | drop => exact .inr (.inl rfl)
  | endRun =>
    cases hover : p.runIsOver with
    | true => exact .inr (.inr ⟨rfl, rfl⟩)
    | false => exact .inl (by simp [step, endRun, hover, hduty])
  | stopEmitting | change => exact .inl hduty
  | emit e =>
    refine .inl ?_
    simp only [step, emit]
    split <;> exact hduty
  | beginDispatch | beginRun => exact .inl (by simp [step, begin, hduty])
  | take =>
    refine .inl ?_
    simp only [step, take]
    split <;> exact hduty
  | hand =>
    refine .inl ?_
    simp only [step, hand]
    split
    · split
      · exact hduty
      · rw [hduty]
        rfl
    · exact hduty
  | endDispatch => exact .inl (by simp [step, endDispatch, returned?, hduty])

/-- What can be told of a post at any time. -/
structure Delivers (sinks : List Sink) (p : Post) : Prop where
  /-- An event is emitted in vain exactly when the one who delivers is gone, -/
  emit_eq_false_iff : ∀ e, (p.mailbox.emit e).1 = false ↔ p.duty = .gone
  /-- and this has become of none before. -/
  accepted_eq : p.duty ≠ .gone → p.accepted = p.offered
  accepted : p.accepted <+: p.offered
  /-- What is taken from the queue is what was accepted, each event once and in order. -/
  taken : p.taken <+: p.accepted
  /-- Every sink is handed what is taken, whatever the sinks do. -/
  handed : ∀ i, p.mailbox.sinks[i]?.map (·.handed) = sinks[i]?.map (·.handed ++ p.received i)
  /-- A dispatch that returns has handed out all that was emitted, and returns how many events have
  been queued since the last one. -/
  returned : ∀ count, p.returned? = some count →
    count = p.since ∧ p.inHand = none ∧ p.taken = p.offered
  /-- A run that is over has handed out all that was emitted, and nobody may emit events any more. -/
  ended : p.runIsOver = true →
    p.mailbox.emitting = false ∧ p.inHand = none ∧ p.taken = p.offered
  /-- No run ends before, unless it is dropped. -/
  running : p.duty = .running → ∀ a,
    (p.step a).duty = .running ∨ a = .drop ∨ a = .endRun ∧ p.runIsOver = true
  /-- A dispatch comes to its end when all that is queued has been handed to every sink. -/
  dispatches : p.duty = .free →
    ((p.begin (.dispatching 0)).run p.course).returned? = some p.mailbox.dispatch.1 ∧
      (p.run (.beginDispatch :: (p.course ++ [.endDispatch]))).mailbox = p.mailbox.dispatch.2 ∧
      (p.run (.beginDispatch :: (p.course ++ [.endDispatch]))).duty = .free
  /-- A run hands out all that is queued, and then is over if nobody may emit events any more. -/
  drains : p.duty = .free →
    ((p.begin .running).run p.course).runIsOver = p.mailbox.drain.1 ∧
      (p.run (.beginRun :: (p.course ++
        [if p.mailbox.emitting then .drop else .endRun]))).mailbox = p.mailbox.drain.2

/-- **Whatever happens, everything is delivered** once and in order to every sink, until the one who
delivers is gone. -/
theorem delivers_after (sinks : List Sink) (history : List PostStep) :
    (after sinks history).Delivers sinks := by
  have h := sound_after sinks history
  constructor
  case emit_eq_false_iff => exact h.emit_eq_false_iff
  case accepted_eq => exact fun hne => (h.complete hne).1
  case accepted => exact h.accepted
  case taken => exact h.taken
  case handed => exact h.handed
  case returned =>
    intro count hreturned
    obtain ⟨hduty, hhand, hqueue, hcount⟩ := h.returned hreturned
    exact ⟨hcount, hhand, h.taken_eq (by rw [hduty]; nofun) hqueue⟩
  case ended =>
    intro hover
    obtain ⟨hduty, hhand, hqueue, hemitting⟩ := over_of_runIsOver hover
    exact ⟨hemitting, hhand, h.taken_eq (by rw [hduty]; nofun) hqueue⟩
  case running => exact running_step
  case dispatches => exact fun hfree => dispatch_course hfree (h.free hfree).1
  case drains => exact fun hfree => drain_course hfree (h.free hfree).1

end Post

end ContentSync
