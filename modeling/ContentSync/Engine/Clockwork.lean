import ContentSync.Engine.Orchestrator
import ContentSync.Engine.Program

/-!
# Programs on a clock

Here programs meet collaborators. Time is counted in whole milliseconds and passes only while every
program waits. Within a millisecond whoever can go on does so in rounds: in each of them everybody
goes as far as possible, and a call that gives way begins in the round after the one it was made in.
What collaborators do, and how long they take, is a parameter.

* `Collaborators` — how calls start, take effect and end;
* `Env.respond` — answers a request, or says what it has to wait for;
* `Env.resume` — goes on with a request that has waited;
* `advance` — runs a program until it waits or is done;
* `Wait.prospect` — when a program that waits can go on;
* `Wait.resume` — goes on with it.

A call that takes exactly as long as its limit is answered in time.
-/

set_option autoImplicit false

namespace ContentSync.Engine

/-- How a call will turn out: after how many milliseconds it ends, never if `none`, and whether it
fails. -/
structure Course where
  delay : Option Nat
  failure : Option Failure

/-- How long a call is waited for within a limit, and whether the limit comes first. -/
def Course.within (c : Course) (limit : Nat) : Nat × Bool :=
  match c.delay with
  | some delay => if delay ≤ limit then (delay, false) else (limit, true)
  | none => (limit, true)

/-- The collaborators of the engine. -/
structure Collaborators (σ : Type) where
  /-- Whether a call lets everybody else go on before it starts. -/
  givesWay : Call → Bool
  /-- A call starts, at a time and in a phase. -/
  start : σ → Nat → Phase → Call → Course × σ
  /-- A call takes effect and is answered. -/
  answer : σ → Nat → (c : Call) → Except Failure c.Answer × σ
  /-- A call has ended, whether it was answered or given up. -/
  finish : σ → Call → σ

/-- What programs run in. -/
structure Env (σ : Type) where
  /-- Milliseconds since the start. -/
  now : Nat
  /-- How many rounds there have been. -/
  round : Nat
  /-- In this round nothing but computations can go on. -/
  quiet : Bool
  /-- How many times somebody has begun to wait. -/
  sequence : Nat
  orchestrator : Orchestrator
  outside : σ

/-- Why a request is not answered yet. -/
inductive Hold where
  /-- A call gives way, since the given round. -/
  | opening (round : Nat)
  /-- A call is under way until a time, if it ever ends, and is too late then or not. -/
  | underWay (course : Course) (due : Option Nat) (late : Bool)
  | pausing (due : Nat)
  | computing

/-- What comes of a request for now. -/
inductive Reply (α : Type) where
  | answer (a : α)
  | hold (h : Hold)

def Reply.map {α β : Type} (f : α → β) : Reply α → Reply β
  | answer a => answer (f a)
  | hold h => hold h

/-- When something that waits can go on. -/
inductive Prospect where
  /-- Now. Of those who can, the one with the least rank was called first. -/
  | now (rank : Int)
  /-- When nobody else can. -/
  | lull
  /-- At a time. -/
  | later (time : Nat)
  | never

/-- The rank of one who can go on now. -/
def Prospect.rank? : Prospect → Option Int
  | now rank => some rank
  | _ => none

def Prospect.isNow (p : Prospect) : Bool := p.rank?.isSome

def Prospect.time? : Prospect → Option Nat
  | later time => some time
  | _ => none

/-- The prospect of one who waits for a time, having begun to with the given number. -/
def Prospect.ofTime (now due sequence : Nat) : Prospect :=
  if due ≤ now then .now sequence else .later due

/-- The first rank among those who can go on now. -/
def Prospect.first? (l : List Prospect) : Option Int := (l.filterMap Prospect.rank?).min?

/-- How an attempt ends that was not cancelled. -/
def Ending.ofResult? {α : Type} : Option (Except Failure α) → Ending α
  | some result => .answered result
  | none => .overdue

/-- A program that waits for the answer to a request. -/
structure Wait (α : Type) where
  sequence : Nat
  request : Request
  hold : Hold
  next : request.Answer → Program α

/-- Where a program stands. -/
inductive Progress (α : Type) where
  | finished (value : α)
  | waiting (wait : Wait α)

namespace Env

variable {σ α : Type}

def clock (e : Env σ) : Timestamp := ⟨e.now / 1000, e.now % 1000 * 1000000⟩

def publish (e : Env σ) (p : Phase) : Env σ := { e with orchestrator := e.orchestrator.publish p }

def release (e : Env σ) : Env σ := { e with orchestrator := e.orchestrator.release }

/-- The number of one who begins to wait. -/
def number (e : Env σ) : Nat × Env σ := (e.sequence, { e with sequence := e.sequence + 1 })

def start (k : Collaborators σ) (e : Env σ) (c : Call) : Course × Env σ :=
  let (course, outside) := k.start e.outside e.now e.orchestrator.phase c
  (course, { e with outside := outside })

/-- The call has been given up. -/
def giveUp (k : Collaborators σ) (e : Env σ) (c : Call) : Env σ :=
  { e with outside := k.finish e.outside c }

/-- The answer to a call. A call that fails has no effect. -/
def answer (k : Collaborators σ) (e : Env σ) (c : Call) (course : Course) :
    Env σ × Except Failure c.Answer :=
  let outside := k.finish e.outside c
  match course.failure with
  | some f => ({ e with outside := outside }, .error f)
  | none =>
    let (result, outside) := k.answer outside e.now c
    ({ e with outside := outside }, result)

/-- Ends a call with a limit. -/
def conclude (k : Collaborators σ) (e : Env σ) (c : Call) (course : Course) (late : Bool) :
    Env σ × Option (Except Failure c.Answer) :=
  if late then (e.giveUp k c, none)
  else
    let (e, result) := e.answer k c course
    (e, some result)

/-- Starts a call that is waited for however long it takes. -/
def openUnlimited (k : Collaborators σ) (e : Env σ) (c : Call) :
    Env σ × Reply (Except Failure c.Answer) :=
  let (course, e) := e.start k c
  if course.delay = some 0 then
    let (e, result) := e.answer k c course
    (e, .answer result)
  else (e, .hold (.underWay course (course.delay.map (e.now + ·)) false))

/-- Starts a call with a limit. -/
def openLimited (k : Collaborators σ) (e : Env σ) (c : Call) (limit : Nat) :
    Env σ × Reply (Option (Except Failure c.Answer)) :=
  let (course, e) := e.start k c
  match course.within limit with
  | (0, late) =>
    let (e, result) := e.conclude k c course late
    (e, .answer result)
  | (length + 1, late) => (e, .hold (.underWay course (some (e.now + (length + 1))) late))

/-- A call without a limit is made. -/
def callUnlimited (k : Collaborators σ) (e : Env σ) (c : Call) :
    Env σ × Reply (Except Failure c.Answer) :=
  if k.givesWay c then (e, .hold (.opening e.round)) else e.openUnlimited k c

/-- A call with a limit is made. One that gives way and has no time at all never starts. -/
def callLimited (k : Collaborators σ) (e : Env σ) (c : Call) (limit : Nat) :
    Env σ × Reply (Option (Except Failure c.Answer)) :=
  if k.givesWay c then
    if limit = 0 then (e, .answer none) else (e, .hold (.opening e.round))
  else e.openLimited k c limit

/-- What comes of a request at once. -/
def respond (k : Collaborators σ) (cancelled : Bool) (e : Env σ) :
    (r : Request) → Env σ × Reply r.Answer
  | .publish p => (e.publish p, .answer ())
  | .isCancelled => (e, .answer cancelled)
  | .clock => (e, .answer e.clock)
  | .announce v =>
    let (queued, orchestrator) := e.orchestrator.announce v
    ({ e with orchestrator := orchestrator }, .answer queued)
  | .remember r => ({ e with orchestrator := e.orchestrator.remember r }, .answer ())
  | .wait c => e.callUnlimited k c
  | .call c limit => e.callLimited k c limit.milliseconds
  | .attempt c limit =>
    if cancelled then (e, .answer .cancelled)
    else
      let (e, reply) := e.callLimited k c limit.milliseconds
      (e, reply.map Ending.ofResult?)
  | .pause length =>
    if cancelled then (e, .answer true)
    else if length.milliseconds = 0 then (e, .answer false)
    else (e, .hold (.pausing (e.now + length.milliseconds)))
  | .compute => (e, .hold .computing)

/-- What comes of a request that has waited. -/
def resume (k : Collaborators σ) (cancelled : Bool) (e : Env σ) :
    (r : Request) → Hold → Env σ × Reply r.Answer
  | .wait c, .opening _ => e.openUnlimited k c
  | .wait c, .underWay course _ _ =>
    let (e, result) := e.answer k c course
    (e, .answer result)
  | .call c limit, .opening _ => e.openLimited k c limit.milliseconds
  | .call c _, .underWay course _ late =>
    let (e, result) := e.conclude k c course late
    (e, .answer result)
  | .attempt c limit, .opening _ =>
    if cancelled then (e, .answer .cancelled)
    else
      let (e, reply) := e.openLimited k c limit.milliseconds
      (e, reply.map Ending.ofResult?)
  | .attempt c _, .underWay course _ late =>
    if cancelled then (e.giveUp k c, .answer .cancelled)
    else
      let (e, result) := e.conclude k c course late
      (e, .answer (Ending.ofResult? result))
  | .pause _, .pausing _ => (e, .answer cancelled)
  | .compute, .computing => (e, .answer ())
  | _, h => (e, .hold h)

/-- Begins to wait for the answer to a request. -/
def suspend (e : Env σ) (r : Request) (h : Hold) (next : r.Answer → Program α) :
    Env σ × Progress α :=
  let (sequence, e) := e.number
  (e, .waiting ⟨sequence, r, h, next⟩)

end Env

section

variable {σ α : Type}

/-- Runs a program until it waits or is done. -/
def advance (k : Collaborators σ) (cancelled : Bool) : Env σ → Program α → Env σ × Progress α
  | e, .done a => (e, .finished a)
  | e, .ask r next =>
    match e.respond k cancelled r with
    | (e, .answer a) => advance k cancelled e (next a)
    | (e, .hold h) => e.suspend r h next

namespace Wait

/-- When a program can go on. A call that gave way later is called earlier. -/
def prospect (cancelled : Bool) (e : Env σ) (w : Wait α) : Prospect :=
  if cancelled && w.request.isCancellable then .now w.sequence
  else
    match w.hold with
    | .opening round => if round < e.round then .now (-w.sequence) else .never
    | .underWay _ (some due) _ => .ofTime e.now due w.sequence
    | .underWay _ none _ => .never
    | .pausing due => .ofTime e.now due w.sequence
    | .computing => if e.quiet then .now w.sequence else .lull

/-- Goes on with a program if it can go on. -/
def resume (k : Collaborators σ) (cancelled : Bool) (e : Env σ) (w : Wait α) :
    Env σ × Progress α :=
  if (w.prospect cancelled e).isNow then
    match e.resume k cancelled w.request w.hold with
    | (e, .answer a) => advance k cancelled e (w.next a)
    | (e, .hold h) => e.suspend w.request h w.next
  else (e, .waiting w)

/-- Stops waiting for good. -/
def abandon (k : Collaborators σ) (e : Env σ) (w : Wait α) : Env σ :=
  match w.request, w.hold with
  | .wait c, .underWay _ _ _ | .call c _, .underWay _ _ _ | .attempt c _, .underWay _ _ _ =>
    e.giveUp k c
  | _, _ => e

end Wait

end

end ContentSync.Engine
