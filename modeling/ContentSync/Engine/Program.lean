import ContentSync.Content.Failure
import ContentSync.Content.Target
import ContentSync.Epoch.Record
import ContentSync.Notice.Event
import ContentSync.Time.Duration

/-!
# Programs over collaborators

The engine decides what to ask of its collaborators; what they answer, how long they take and
whether somebody cancels meanwhile is not up to it. So what it does is written as a `Program`: a
tree of requests whose branches are the possible answers. How requests are answered is a separate
matter, and a statement about a program is a statement about all the ways of answering them.

* `Call` — what can be asked of the content service, the cache and the version store;
* `Ending` — how an attempt ends: with an answer, too late, or cancelled;
* `Request` — a call, a pause, or something the engine does itself;
* `Program` — requests and what is done with their answers.
-/

set_option autoImplicit false

namespace ContentSync

/-- A call to a collaborator. -/
inductive Call where
  /-- Which versions the content service advertises. -/
  | metadata
  /-- The payload of a target; a localization bundle may be asked for as separate files. -/
  | fetch (target : FetchTarget) (version : Version) (unzip : Bool)
  /-- The record of a player. -/
  | player (code : AllyCode)
  /-- The committed versions. -/
  | versions
  | commit (kind : DataKind) (version : Version)
  | read (key : CacheKey)
  | exist (key : CacheKey)
  | write (key : CacheKey) (payload : Json) (lifetime : Duration)
  | invalidate (key : CacheKey)

/-- What a successful call brings. -/
abbrev Call.Answer : Call → Type
  | metadata => Metadata
  | fetch _ _ _ => Json
  | player _ => Json
  | versions => StoredVersions
  | commit _ _ => Unit
  | read _ => Option Json
  | exist _ => Bool
  | write _ _ _ => Unit
  | invalidate _ => Unit

/-- How an attempt ends. -/
inductive Ending (α : Type) where
  | answered (result : Except Failure α)
  /-- Its limit passed before there was an answer. -/
  | overdue
  /-- The epoch was cancelled before there was an answer. -/
  | cancelled

/-- A request of the engine. -/
inductive Request where
  /-- Shows a phase to whoever watches. -/
  | publish (phase : Phase)
  /-- Whether the epoch has been cancelled. -/
  | isCancelled
  /-- The time of day. -/
  | clock
  /-- Puts an event into the queue for delivery. -/
  | announce (event : Event)
  /-- Keeps a finished epoch as the last one. -/
  | remember (epoch : Epoch)
  /-- A call that is waited for however long it takes. -/
  | wait (c : Call)
  /-- A call that is given up when its limit passes. -/
  | call (c : Call) (limit : Duration)
  /-- A call that is given up when its limit passes or the epoch is cancelled. None is made in an
  epoch that is cancelled already. -/
  | attempt (c : Call) (limit : Duration)
  /-- A pause, cut short when the epoch is cancelled. -/
  | pause (length : Duration)
  /-- Time for a long computation, in which everything else goes on as far as it can. -/
  | compute

/-- What comes back: of a bounded call, nothing when its limit passed; of a pause, whether it was
cut short; of an announcement, whether anybody will deliver it. -/
abbrev Request.Answer : Request → Type
  | publish _ => Unit
  | isCancelled => Bool
  | clock => Timestamp
  | announce _ => Bool
  | remember _ => Unit
  | wait c => Except Failure c.Answer
  | call c _ => Option (Except Failure c.Answer)
  | attempt c _ => Ending c.Answer
  | pause _ => Bool
  | compute => Unit

/-- Whether a cancellation answers a request. -/
def Request.isCancellable : Request → Bool
  | attempt _ _ | pause _ => true
  | _ => false

/-- Requests, and what is done with their answers. -/
inductive Program (α : Type) where
  | done (value : α)
  | ask (request : Request) (next : request.Answer → Program α)

namespace Program

variable {α β : Type}

/-- Goes on with a second program once the first is done. -/
def bind (p : Program α) (f : α → Program β) : Program β :=
  match p with
  | done a => f a
  | ask r next => ask r fun answer => (next answer).bind f

instance : Monad Program where
  pure := done
  bind := bind

/-- The program that makes one request. -/
def request (r : Request) : Program r.Answer := ask r done

theorem bind_done (a : α) (f : α → Program β) : (done a).bind f = f a := rfl

theorem bind_ask (r : Request) (next : r.Answer → Program α) (f : α → Program β) :
    (ask r next).bind f = ask r fun answer => (next answer).bind f := rfl

theorem bind_pure (p : Program α) : p.bind done = p := by
  induction p with
  | done a => rfl
  | ask r next ih => simp [bind, ih]

theorem bind_assoc {γ : Type} (p : Program α) (f : α → Program β) (g : β → Program γ) :
    (p.bind f).bind g = p.bind fun a => (f a).bind g := by
  induction p with
  | done a => rfl
  | ask r next ih => simp [bind, ih]

instance : LawfulMonad Program :=
  LawfulMonad.mk' Program bind_pure (fun _ _ => rfl) bind_assoc

end Program

end ContentSync
