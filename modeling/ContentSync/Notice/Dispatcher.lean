import ContentSync.Notice.Event

/-!
# Delivering events

Events are put into a queue, so that emitting one never waits, and are handed from there to every
sink. A sink that fails loses the event; the other sinks and the queue are not affected.

* `Mailbox.emit` — queues an event while somebody listens;
* `Mailbox.dispatch` — hands out what is queued and counts it;
* `Mailbox.drain` — hands out what is queued, listens on, and says whether listening ends.
-/

set_option autoImplicit false

namespace ContentSync

/-- A consumer of events. -/
structure Sink where
  name : String
  /-- What becomes of a delivery. -/
  deliver : Event → Except Failure Unit
  /-- The events handed to the sink so far, in order. -/
  handed : List Event

namespace Sink

/-- A sink that takes every event. -/
def accepting (name : String) : Sink := ⟨name, fun _ => .ok (), []⟩

/-- A sink whose deliveries all fail. -/
def failing (name : String) (failure : Failure) : Sink := ⟨name, fun _ => .error failure, []⟩

/-- Hands an event to a sink, whatever becomes of the delivery. -/
def hand (s : Sink) (e : Event) : Sink :=
  match s.deliver e with
  | .ok () => { s with handed := s.handed ++ [e] }
  | .error _ => { s with handed := s.handed ++ [e] }

theorem handed_hand (s : Sink) (e : Event) : (s.hand e).handed = s.handed ++ [e] := by
  simp only [hand]
  split <;> rfl

end Sink

/-- The queue between those who emit events and those who deliver them. -/
structure Mailbox where
  sinks : List Sink
  queue : List Event
  /-- Somebody delivers events. -/
  listening : Bool
  /-- Somebody may emit events. -/
  emitting : Bool

namespace Mailbox

def create (sinks : List Sink) : Mailbox := ⟨sinks, [], true, true⟩

/-- Queues an event. Without a listener the event is lost. -/
def emit (m : Mailbox) (e : Event) : Bool × Mailbox :=
  if m.listening then (true, { m with queue := m.queue ++ [e] }) else (false, m)

/-- Hands an event to every sink. -/
def fanOut (sinks : List Sink) (e : Event) : List Sink := sinks.map (·.hand e)

/-- Hands every queued event to every sink, in order, and counts them. -/
def dispatch (m : Mailbox) : Nat × Mailbox :=
  (m.queue.length, { m with sinks := m.queue.foldl fanOut m.sinks, queue := [] })

/-- Nobody listens any more; what is queued is lost. -/
def stopListening (m : Mailbox) : Mailbox := { m with listening := false, queue := [] }

def stopEmitting (m : Mailbox) : Mailbox := { m with emitting := false }

/-- Delivers for as long as there is somebody to emit. Says whether that has come to an end, and
does not listen afterwards. -/
def drain (m : Mailbox) : Bool × Mailbox := (!m.emitting, m.dispatch.2.stopListening)

end Mailbox

end ContentSync
