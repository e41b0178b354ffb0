import ContentSync.Engine.Fetching
import ContentSync.Proofs.Engine.Path

/-!
# Runs of an epoch

An epoch is a program that checks, several programs that fetch, and a program that writes. A run is
what becomes of them when nothing is known of the collaborators: every call may be answered in any
way, at any time and in any order, or not at all, and the epoch may be cancelled before it starts
or whenever it waits.

* `Moment` — what happens in a run, a list of which is its history;
* `Thread` / `Thread.Step` — a program that is asking or waiting, and its next moment;
* `Situation` / `Situation.Step` — how far an epoch has come, and what happens next;
* `Run` — the histories of an epoch and the situations to which they lead;
* `Run.split` — every moment of a history was the next one in its place;
* `Run.faced` — a request that is faced is what the program of its worker has come to.

The engine is not interrupted except where it waits for an answer (`Request.isAwaited`), so that is
where it can be cancelled. An attempt need not end at once when that happens; it may still be
answered, and a new one may begin, as long as nobody has looked.
-/

set_option autoImplicit false

namespace ContentSync

namespace Request

/-- The call that a request makes. -/
def call? : Request → Option Call
  | wait c | call c _ | attempt c _ => some c
  | _ => none

/-- Others have their turn before the request is answered. -/
def isAwaited : Request → Bool
  | wait _ | call _ _ | attempt _ _ | pause _ | compute | remember _ => true
  | publish _ | isCancelled | clock | announce _ => false

/-- The answers that there can be to a request. Those that tell of a cancellation are true. -/
def Admits (cancelled : Bool) : (r : Request) → r.Answer → Prop
  | isCancelled, answer => answer = cancelled
  | attempt _ _, .cancelled => cancelled = true
  | pause _, cut => cut = true → cancelled = true
  | _, _ => True

end Request

namespace Engine

/-- Who makes a request: the epoch itself, or the fetch of one of its jobs. -/
inductive Worker where
  | epoch
  | job (number : Nat)
  deriving DecidableEq

/-- Something that happens in an epoch. -/
inductive Moment where
  | cancelled
  | asked (w : Worker) (r : Request)
  | answered (w : Worker) (e : Exchange)
  /-- The check is over, and there is something to fetch. -/
  | selected (jobs : List Job) (shown : Phase)
  /-- A job has ended. -/
  | progressed (shown : Phase)

/-- A worker makes a request, or is answered. -/
inductive Moment.Faces (w : Worker) (r : Request) : Moment → Prop
  | asked : Faces w r (.asked w r)
  | answered (a : r.Answer) : Faces w r (.answered w ⟨r, a⟩)

/-- Whether an epoch with the given history has been cancelled. -/
def wasCancelled (t : List Moment) : Bool := t.any (· matches .cancelled)

theorem wasCancelled_iff {t : List Moment} : wasCancelled t = true ↔ Moment.cancelled ∈ t := by
  induction t with
  | nil => simp [wasCancelled]
  | cons m t ih =>
    simp only [wasCancelled, List.any_cons, Bool.or_eq_true, List.mem_cons] at ih ⊢
    rw [ih]
    cases m <;> simp

@[simp] theorem wasCancelled_append (t u : List Moment) :
    wasCancelled (t ++ u) = (wasCancelled t || wasCancelled u) := List.any_append

/-! ## Threads -/

/-- A program that goes on, or that waits for an answer. -/
inductive Thread (α : Type) where
  | running (p : Program α)
  | waiting (r : Request) (next : r.Answer → Program α)

namespace Thread

variable {α : Type}

/-- What is left to do. -/
def program : Thread α → Program α
  | running p => p
  | waiting r next => .ask r next

/-- The request that has not been answered. -/
def pending : Thread α → List Request
  | running _ => []
  | waiting r _ => [r]

@[simp] theorem program_running (p : Program α) : (running p).program = p := rfl

@[simp] theorem program_waiting (r : Request) (next : r.Answer → Program α) :
    (waiting r next).program = .ask r next := rfl

@[simp] theorem pending_running (p : Program α) : (running p).pending = [] := rfl

@[simp] theorem pending_waiting (r : Request) (next : r.Answer → Program α) :
    (waiting r next).pending = [r] := rfl

/-- A request is made, or answered. -/
inductive Step (w : Worker) (cancelled : Bool) : Thread α → Moment → Thread α → Prop
  | ask (r : Request) (next : r.Answer → Program α) :
    Step w cancelled (running (.ask r next)) (.asked w r) (waiting r next)
  | answer (r : Request) (next : r.Answer → Program α) (a : r.Answer)
    (ha : r.Admits cancelled a) :
    Step w cancelled (waiting r next) (.answered w ⟨r, a⟩) (running (next a))

/-- A moment at which a request is faced is a step of its worker. -/
theorem Step.faces {w v : Worker} {r : Request} {cancelled : Bool} {th th' : Thread α} {m : Moment}
    (hs : th.Step v cancelled m th') (hm : m.Faces w r) : v = w ∧ ∃ next, th.program = .ask r next := by
  cases hs with
  | ask r next =>
    cases hm
    exact ⟨rfl, next, rfl⟩
  | answer r next a ha =>
    cases hm
    exact ⟨rfl, next, rfl⟩

/-- The program waits for an answer that takes its time. -/
def AtRest : Thread α → Prop
  | running _ => False
  | waiting r _ => r.isAwaited = true

end Thread

/-! ## Situations -/

/-- How far an epoch has come. -/
inductive Situation where
  | checking (th : Thread Checked)
  | fetching (epoch : Epoch) (f : Fetching) (slots : List (Nat × Thread Fetched))
  | writing (th : Thread Epoch)

namespace Situation

/-- An epoch that has been let in. -/
def start (p : SyncPolicy) (trigger : Trigger) : Situation :=
  checking (.running (Engine.checking p trigger))

/-- An epoch that is over. -/
def ended (epoch : Epoch) : Situation := writing (.running (.done epoch))

/-- Nothing goes on without an answer, except for fetches. -/
def AtRest : Situation → Prop
  | checking th => th.AtRest
  | fetching _ _ _ => True
  | writing th => th.AtRest

/-- What can happen next. -/
inductive Step (p : SyncPolicy) (cancelled : Bool) : Situation → Option Moment → Situation → Prop
  | check {th th' : Thread Checked} {m : Moment} (hth : th.Step .epoch cancelled m th') :
    Step p cancelled (checking th) (some m) (checking th')
  /-- There is nothing to fetch. -/
  | stop (epoch : Epoch) :
    Step p cancelled (checking (.running (.done (.stopped epoch)))) none
      (writing (.running (concluding epoch)))
  /-- There is something to fetch. -/
  | select (epoch : Epoch) (jobs : List Job) {f : Fetching}
    (hf : f = Fetching.create p.maxConcurrentFetches jobs) :
    Step p cancelled (checking (.running (.done (.ready epoch jobs))))
      (some (.selected jobs f.phase)) (fetching epoch f [])
  /-- A job is started. -/
  | launch {epoch : Epoch} {f g : Fetching} {slots : List (Nat × Thread Fetched)} {number : Nat}
    {job : Job} (hf : f.next? = some (number, job, g)) :
    Step p cancelled (fetching epoch f slots) none
      (fetching epoch g (slots ++ [(number, .running (fetchOne p job))]))
  | fetch {epoch : Epoch} {f : Fetching} {before after : List (Nat × Thread Fetched)}
    {number : Nat} {th th' : Thread Fetched} {m : Moment}
    (hth : th.Step (.job number) cancelled m th') :
    Step p cancelled (fetching epoch f (before ++ (number, th) :: after)) (some m)
      (fetching epoch f (before ++ (number, th') :: after))
  /-- A job has ended. -/
  | land {epoch : Epoch} {f : Fetching} {before after : List (Nat × Thread Fetched)}
    {number : Nat} (result : Fetched) :
    Step p cancelled (fetching epoch f (before ++ (number, .running (.done result)) :: after))
      (some (.progressed (f.finish number result).phase))
      (fetching epoch (f.finish number result) (before ++ after))
  /-- Every job has ended. -/
  | collect {epoch : Epoch} {f : Fetching} {slots : List (Nat × Thread Fetched)}
    (hf : f.isOver = true) :
    Step p cancelled (fetching epoch f slots) none
      (writing (.running (Engine.writing p epoch f.taken >>= concluding)))
  | write {th th' : Thread Epoch} {m : Moment} (hth : th.Step .epoch cancelled m th') :
    Step p cancelled (writing th) (some m) (writing th')

end Situation

/-! ## Runs -/

/-- What can have happened in an epoch, and where it stands then. -/
inductive Run (p : SyncPolicy) (trigger : Trigger) : List Moment → Situation → Prop
  | start : Run p trigger [] (.start p trigger)
  /-- The epoch was cancelled before it started. -/
  | startCancelled : Run p trigger [.cancelled] (.start p trigger)
  | step {t : List Moment} {s s' : Situation} {m : Option Moment} (run : Run p trigger t s)
    (hs : s.Step p (wasCancelled t) m s') : Run p trigger (t ++ m.toList) s'
  | cancel {t : List Moment} {s : Situation} (run : Run p trigger t s) (hrest : s.AtRest)
    (hc : wasCancelled t = false) : Run p trigger (t ++ [.cancelled]) s

/-- A moment can come next. -/
def Run.Next (p : SyncPolicy) (t : List Moment) (s : Situation) (m : Moment) : Prop :=
  (m = .cancelled ∧ wasCancelled t = false ∧ (t = [] ∨ s.AtRest)) ∨
    ∃ s', s.Step p (wasCancelled t) (some m) s'

/-- **Every moment of a history was the next one** after the moments before it. -/
theorem Run.split {p : SyncPolicy} {trigger : Trigger} {t u : List Moment} {m : Moment}
    {s : Situation} (run : Run p trigger (t ++ m :: u) s) :
    ∃ s₁, Run p trigger t s₁ ∧ Run.Next p t s₁ m := by
  generalize ht : t ++ m :: u = v at run
  induction run generalizing u with
  | start => simp at ht
  | startCancelled =>
    obtain ⟨rfl, rfl⟩ : t = [] ∧ m = .cancelled := by
      cases t with
      | nil => exact ⟨rfl, (List.cons.inj ht).1⟩
      | cons n t => simp at ht
    exact ⟨_, .start, .inl ⟨rfl, rfl, .inl rfl⟩⟩
  | @step v s s' o run hs ih =>
    cases o with
    | none => exact ih (by simpa using ht)
    | some n =>
      obtain rfl | ⟨u, x, rfl⟩ := u.eq_nil_or_concat
      · obtain ⟨rfl, hn⟩ := List.append_inj' ht rfl
        obtain rfl : m = n := (List.cons.inj hn).1
        exact ⟨s, run, .inr ⟨s', hs⟩⟩
      · rw [List.concat_eq_append, ← List.cons_append, ← List.append_assoc] at ht
        exact ih (List.append_inj' ht rfl).1
  | @cancel v s run hrest hc ih =>
    obtain rfl | ⟨u, x, rfl⟩ := u.eq_nil_or_concat
    · obtain ⟨rfl, hn⟩ := List.append_inj' ht rfl
      obtain rfl : m = .cancelled := (List.cons.inj hn).1
      exact ⟨s, run, .inl ⟨rfl, hc, .inr hrest⟩⟩
    · rw [List.concat_eq_append, ← List.cons_append, ← List.append_assoc] at ht
      exact ih (List.append_inj' ht rfl).1

/-- What is faced by a situation: a worker's program has come to a request. -/
inductive Situation.Facing (w : Worker) (r : Request) : Situation → Prop
  | checking {th : Thread Checked} (epoch : w = .epoch) (next : r.Answer → Program Checked)
    (program_eq : th.program = .ask r next) : Facing w r (.checking th)
  | fetching {epoch : Epoch} {f : Fetching} {slots : List (Nat × Thread Fetched)} {number : Nat}
    {th : Thread Fetched} (job : w = .job number) (mem : (number, th) ∈ slots)
    (next : r.Answer → Program Fetched) (program_eq : th.program = .ask r next) :
    Facing w r (.fetching epoch f slots)
  | writing {th : Thread Epoch} (epoch : w = .epoch) (next : r.Answer → Program Epoch)
    (program_eq : th.program = .ask r next) : Facing w r (.writing th)

/-- **A request that is faced is what the program of its worker has come to.** -/
theorem Run.faced {p : SyncPolicy} {trigger : Trigger} {t u : List Moment} {m : Moment}
    {s : Situation} {w : Worker} {r : Request} (run : Run p trigger (t ++ m :: u) s)
    (hm : m.Faces w r) : ∃ s₁, Run p trigger t s₁ ∧ s₁.Facing w r := by
  obtain ⟨s₁, run₁, ⟨rfl, -⟩ | ⟨s₂, hs⟩⟩ := run.split
  · cases hm
  refine ⟨s₁, run₁, ?_⟩
  cases hs with
  | check hth =>
    obtain ⟨rfl, next, heq⟩ := hth.faces hm
    exact .checking rfl next heq
  | select => cases hm
  | fetch hth =>
    obtain ⟨rfl, next, heq⟩ := hth.faces hm
    exact .fetching rfl (by simp) next heq
  | land => cases hm
  | write hth =>
    obtain ⟨rfl, next, heq⟩ := hth.faces hm
    exact .writing rfl next heq

end Engine

end ContentSync
