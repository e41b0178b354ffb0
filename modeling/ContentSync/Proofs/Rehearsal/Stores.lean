import ContentSync.Proofs.Engine.CommittedCached
import ContentSync.Proofs.Engine.OnTheClock
import ContentSync.Rehearsal.Backstage

/-!
# The stores of a rehearsal

What is proved of histories holds of rehearsals: what the scripted collaborators do to their stores
is what the answers of an epoch say.

* `Backstage.world` — the stores behind the stage;
* `Keeps`, `Shows` — the stores stay as they are, or an answer is given and has its effect;
* `respond_serves`, `resume_serves` — every answer is one that the stores can give;
* `follows_of_moves` — the stores follow the moments of an epoch;
* `Rehearsed` — what can become of the stores when epochs run on the clock, one at a time, while
  players are looked up, the cache is purged and time passes;
* `Rehearsed.recorded` — it is a history, or an epoch of one is under way;
* `Rehearsed.cached` — so between two epochs what is committed is cached.
-/

set_option autoImplicit false

namespace ContentSync.Rehearsal

open Engine

/-- The stores behind the stage, with a log of answers. -/
def Backstage.world (b : Backstage) (now : Nat) (log : List (Instant × Exchange)) : World :=
  ⟨Backstage.instant now, b.cache, b.versions, log⟩

/-- The stores stay as they are, and no time passes. -/
structure Keeps (e e' : Env Backstage) : Prop where
  now_eq : e'.now = e.now
  cache_eq : e'.outside.cache = e.outside.cache
  versions_eq : e'.outside.versions = e.outside.versions
  plain_eq : e'.outside.plainCache = e.outside.plainCache

/-- The stores give an answer, which has its effect. -/
structure Shows (e : Env Backstage) (x : Exchange) (e' : Env Backstage) : Prop where
  now_eq : e'.now = e.now
  plain_eq : e'.outside.plainCache = e.outside.plainCache
  answers : ∀ log, (e.outside.world e.now log).Answers x
  world_eq : ∀ log, e'.outside.world e'.now ((Backstage.instant e.now, x) :: log) =
    (e.outside.world e.now log).after x

/-- An exchange tells the result of a call, or that there was none in time. -/
inductive Tells (c : Call) : Option (Except Failure c.Answer) → Exchange → Prop
  | wait (result : Except Failure c.Answer) : Tells c (some result) ⟨.wait c, result⟩
  | call (limit : Duration) (result : Option (Except Failure c.Answer)) :
    Tells c result ⟨.call c limit, result⟩
  | attempt (limit : Duration) (result : Option (Except Failure c.Answer)) :
    Tells c result ⟨.attempt c limit, Ending.ofResult? result⟩

variable {e e₁ e' : Env Backstage} {x : Exchange} {c : Call} {cancelled : Bool}

theorem Keeps.refl (e : Env Backstage) : Keeps e e := ⟨rfl, rfl, rfl, rfl⟩

theorem Keeps.world_eq (keeps : Keeps e e') (log : List (Instant × Exchange)) :
    e'.outside.world e'.now log = e.outside.world e.now log := by
  simp [Backstage.world, keeps.now_eq, keeps.cache_eq, keeps.versions_eq]

/-- An answer that brings nothing leaves the stores as they are. -/
theorem Keeps.shows (keeps : Keeps e e') (hx : x.done? = none) : Shows e x e' where
  now_eq := keeps.now_eq
  plain_eq := keeps.plain_eq
  answers log c a hb := by
    rw [hb.done?] at hx
    cases hx
  world_eq log := by
    simp [World.after, hx, Backstage.world, keeps.now_eq, keeps.cache_eq, keeps.versions_eq]

theorem Shows.after (keeps : Keeps e e₁) (shows : Shows e₁ x e') : Shows e x e' where
  now_eq := shows.now_eq.trans keeps.now_eq
  plain_eq := shows.plain_eq.trans keeps.plain_eq
  answers log := keeps.world_eq log ▸ shows.answers log
  world_eq log := by
    rw [← keeps.world_eq, ← keeps.now_eq]
    exact shows.world_eq log

/-! ## Calls -/

theorem Tells.done?_none (tells : Tells c none x) : x.done? = none := by
  cases tells <;> rfl

theorem Tells.done?_error {f : Failure} (tells : Tells c (some (.error f)) x) : x.done? = none := by
  cases tells <;> rfl

theorem Tells.brings {a : c.Answer} (tells : Tells c (some (.ok a)) x) : x.Brings c a := by
  cases tells with
  | wait => exact .wait
  | call limit => exact .call limit
  | attempt limit => exact .attempt limit

/-- A call that fails changes nothing behind the stage. -/
theorem Backstage.eq_of_answer_error {b b' : Backstage} {now : Nat} {f : Failure}
    (h : b.answer now c = (.error f, b')) : b' = b := by
  cases c with
  | metadata | fetch | player => exact (congrArg Prod.snd h).symm
  | versions | commit | read | write | invalidate => cases h
  | exist key =>
    simp only [Backstage.answer] at h
    split at h <;> cases h

/-- A call that succeeds brings what the stores give, and has its effect. -/
theorem Backstage.world_of_answer_ok {b b' : Backstage} {now : Nat} {a : c.Answer}
    (hplain : b.plainCache = false) (h : b.answer now c = (.ok a, b'))
    (log log' : List (Instant × Exchange)) :
    b'.plainCache = false ∧ (b.world now log).Gives c a ∧
      b'.world now log' = { (b.world now log).apply c with log := log' } := by
  cases c with
  | metadata | fetch | player =>
    obtain rfl := (congrArg Prod.snd h).symm
    exact ⟨hplain, trivial, rfl⟩
  | versions | commit | write | invalidate =>
    cases h
    exact ⟨hplain, by trivial, rfl⟩
  | read key =>
    cases h
    exact ⟨hplain, MemoryCache.read_fst .., rfl⟩
  | exist key =>
    simp only [Backstage.answer, hplain, Bool.false_eq_true, if_false] at h
    cases h
    exact ⟨hplain, rfl, rfl⟩

theorem keeps_giveUp (e : Env Backstage) (c : Call) : Keeps e (e.giveUp collaborators c) := by
  cases c <;> exact ⟨rfl, rfl, rfl, rfl⟩

/-- **A call has the effect that its answer has on the stores.** -/
theorem answer_shows {course : Course} {result : Except Failure c.Answer}
    (hplain : e.outside.plainCache = false) (h : e.answer collaborators c course = (e', result))
    (tells : Tells c (some result) x) : Shows e x e' := by
  have hkeeps := keeps_giveUp e c
  unfold Env.answer at h
  split at h
  · cases h
    exact hkeeps.shows tells.done?_error
  · refine .after hkeeps ?_
    cases hans : (e.outside.finish c).answer e.now c with
    | mk answer b =>
      simp only [collaborators, hans] at h
      cases h
      cases result with
      | error f =>
        obtain rfl := Backstage.eq_of_answer_error hans
        exact (Keeps.refl _).shows tells.done?_error
      | ok a =>
        have hworld := Backstage.world_of_answer_ok (hkeeps.plain_eq.trans hplain) hans
        refine ⟨rfl, ?_, fun log => ?_, fun log => ?_⟩
        · exact (hworld [] []).1.trans (hkeeps.plain_eq.trans hplain).symm
        · rintro c' a' hb
          cases tells <;> cases hb <;> exact (hworld log []).2.1
        · rw [World.after, tells.brings.done?]
          exact (hworld log _).2.2

theorem conclude_shows {course : Course} {late : Bool} {result : Option (Except Failure c.Answer)}
    (hplain : e.outside.plainCache = false)
    (h : e.conclude collaborators c course late = (e', result)) (tells : Tells c result x) :
    Shows e x e' := by
  unfold Env.conclude at h
  split at h
  · cases h
    exact (keeps_giveUp e c).shows tells.done?_none
  · cases h
    exact answer_shows hplain rfl tells

theorem keeps_start (e : Env Backstage) (c : Call) : Keeps e (e.start collaborators c).2 := by
  cases c with
  | metadata | fetch | player => exact ⟨rfl, rfl, rfl, rfl⟩
  | versions | commit | read | exist | write | invalidate =>
    simp only [Env.start, collaborators, Backstage.start, Backstage.origin?]
    split <;> exact ⟨rfl, rfl, rfl, rfl⟩

/-- What comes of a call for now: it is answered, or it is waited for. -/
def Replies (c : Call) (e e' : Env Backstage) : Engine.Reply (Option (Except Failure c.Answer)) → Prop
  | .answer result => ∀ x, Tells c result x → Shows e x e'
  | .hold _ => Keeps e e'

theorem openUnlimited_replies {reply : Engine.Reply (Except Failure c.Answer)}
    (hplain : e.outside.plainCache = false) (h : e.openUnlimited collaborators c = (e', reply)) :
    Replies c e e' (reply.map some) := by
  have hkeeps := keeps_start e c
  unfold Env.openUnlimited at h
  dsimp only at h
  split at h
  · cases h
    exact fun _ tells => .after hkeeps (answer_shows (hkeeps.plain_eq.trans hplain) rfl tells)
  · cases h
    exact hkeeps

theorem openLimited_replies {limit : Nat} {reply : Engine.Reply (Option (Except Failure c.Answer))}
    (hplain : e.outside.plainCache = false)
    (h : e.openLimited collaborators c limit = (e', reply)) : Replies c e e' reply := by
  have hkeeps := keeps_start e c
  unfold Env.openLimited at h
  dsimp only at h
  split at h
  · cases h
    exact fun _ tells => .after hkeeps (conclude_shows (hkeeps.plain_eq.trans hplain) rfl tells)
  · cases h
    exact hkeeps

theorem callUnlimited_replies {reply : Engine.Reply (Except Failure c.Answer)}
    (hplain : e.outside.plainCache = false) (h : e.callUnlimited collaborators c = (e', reply)) :
    Replies c e e' (reply.map some) := by
  unfold Env.callUnlimited at h
  split at h
  · cases h
    exact .refl e
  · exact openUnlimited_replies hplain h

theorem callLimited_replies {limit : Nat} {reply : Engine.Reply (Option (Except Failure c.Answer))}
    (hplain : e.outside.plainCache = false)
    (h : e.callLimited collaborators c limit = (e', reply)) : Replies c e e' reply := by
  unfold Env.callLimited at h
  split at h
  · split at h
    · cases h
      exact fun _ tells => (Keeps.refl e).shows tells.done?_none
    · cases h
      exact .refl e
  · exact openLimited_replies hplain h

/-! ## Requests -/

/-- What comes of a request for now: it is answered, or it is waited for. -/
def Serves (r : Request) (e e' : Env Backstage) : Engine.Reply r.Answer → Prop
  | .answer a => Shows e ⟨r, a⟩ e'
  | .hold _ => Keeps e e'

theorem Replies.attempt {limit : Duration} {reply : Engine.Reply (Option (Except Failure c.Answer))}
    (replies : Replies c e e' reply) :
    Serves (.attempt c limit) e e' (reply.map Ending.ofResult?) := by
  cases reply with
  | answer result => exact replies _ (.attempt limit result)
  | hold => exact replies

theorem Replies.call {limit : Duration} {reply : Engine.Reply (Option (Except Failure c.Answer))}
    (replies : Replies c e e' reply) : Serves (.call c limit) e e' reply := by
  cases reply with
  | answer result => exact replies _ (.call limit result)
  | hold => exact replies

theorem Replies.wait {reply : Engine.Reply (Except Failure c.Answer)}
    (replies : Replies c e e' (reply.map some)) : Serves (.wait c) e e' reply := by
  cases reply with
  | answer result => exact replies _ (.wait result)
  | hold => exact replies

/-- **What is answered at once is what the stores give.** -/
theorem respond_serves {r : Request} {reply : Engine.Reply r.Answer}
    (hplain : e.outside.plainCache = false)
    (h : e.respond collaborators cancelled r = (e', reply)) : Serves r e e' reply := by
  cases r with
  | publish | isCancelled | clock | announce | remember =>
    cases h
    exact Keeps.shows ⟨rfl, rfl, rfl, rfl⟩ rfl
  | wait c => exact (callUnlimited_replies hplain h).wait
  | call c limit => exact (callLimited_replies hplain h).call
  | attempt c limit =>
    simp only [Env.respond] at h
    split at h
    · cases h
      exact (Keeps.refl e).shows rfl
    · cases h
      exact (callLimited_replies hplain rfl).attempt
  | pause length =>
    simp only [Env.respond] at h
    split at h
    · cases h
      exact (Keeps.refl e).shows rfl
    · split at h <;> cases h
      · exact (Keeps.refl e).shows rfl
      · exact .refl e
  | compute =>
    cases h
    exact .refl e

/-- **What is answered later is what the stores give then.** -/
theorem resume_serves {r : Request} {hold : Hold} {reply : Engine.Reply r.Answer}
    (hplain : e.outside.plainCache = false)
    (h : e.resume collaborators cancelled r hold = (e', reply)) : Serves r e e' reply := by
  cases r with
  | publish | isCancelled | clock | announce | remember =>
    cases h
    exact .refl e
  | wait c =>
    cases hold with
    | opening => exact (openUnlimited_replies hplain h).wait
    | underWay course due late =>
      cases h
      exact answer_shows hplain rfl (.wait _)
    | pausing | computing =>
      cases h
      exact .refl e
  | call c limit =>
    cases hold with
    | opening => exact (openLimited_replies hplain h).call
    | underWay course due late =>
      cases h
      exact conclude_shows hplain rfl (.call limit _)
    | pausing | computing =>
      cases h
      exact .refl e
  | attempt c limit =>
    cases hold with
    | opening =>
      simp only [Env.resume] at h
      split at h
      · cases h
        exact (Keeps.refl e).shows rfl
      · cases h
        exact (openLimited_replies hplain rfl).attempt
    | underWay course due late =>
      simp only [Env.resume] at h
      split at h
      · cases h
        exact (keeps_giveUp e c).shows rfl
      · cases h
        exact conclude_shows hplain rfl (.attempt limit _)
    | pausing | computing =>
      cases h
      exact .refl e
  | pause length =>
    cases hold with
    | pausing =>
      cases h
      exact (Keeps.refl e).shows rfl
    | opening | underWay | computing =>
      cases h
      exact .refl e
  | compute =>
    cases hold with
    | computing =>
      cases h
      exact (Keeps.refl e).shows rfl
    | opening | underWay | pausing =>
      cases h
      exact .refl e

/-! ## Epochs -/

section

variable {start : World} {t u : List Moment} {log : List (Instant × Exchange)}

theorem Keeps.follows (keeps : Keeps e e') (follows : Follows start t (e.outside.world e.now log)) :
    Follows start t (e'.outside.world e'.now log) := by
  rw [keeps.world_eq]
  exact follows

theorem Shows.follows {w : Worker} (shows : Shows e x e')
    (follows : Follows start t (e.outside.world e.now log)) :
    Follows start (t ++ [.answered w x])
      (e'.outside.world e'.now ((Backstage.instant e.now, x) :: log)) := by
  rw [shows.world_eq]
  exact follows.answered (shows.answers log)

/-- **The stores follow the moments of an epoch.** -/
theorem follows_of_moves (moves : e.Moves collaborators cancelled u e')
    (hplain : e.outside.plainCache = false)
    (follows : Follows start t (e.outside.world e.now log)) :
    e'.outside.plainCache = false ∧
      ∃ log', Follows start (t ++ u) (e'.outside.world e'.now log') := by
  induction moves generalizing t log with
  | refl e =>
    rw [List.append_nil]
    exact ⟨hplain, log, follows⟩
  | trans first second ih₁ ih₂ =>
    obtain ⟨hplain, log', follows⟩ := ih₁ hplain follows
    obtain ⟨hplain, log', follows⟩ := ih₂ hplain follows
    exact ⟨hplain, log', by simpa using follows⟩
  | @served e e' w r a respond_eq =>
    have shows : Shows e ⟨r, a⟩ e' := respond_serves hplain respond_eq
    have hasked := follows.other (m := .asked w r) (by simp)
    have hanswered := shows.follows (w := w) hasked
    rw [List.append_assoc] at hanswered
    exact ⟨shows.plain_eq.trans hplain, _, hanswered⟩
  | @held e e' w r hold respond_eq =>
    have keeps : Keeps e e' := respond_serves hplain respond_eq
    exact ⟨keeps.plain_eq.trans hplain, log, keeps.follows (follows.other (by simp))⟩
  | @resumed e e' w r hold a resume_eq =>
    have shows : Shows e ⟨r, a⟩ e' := resume_serves hplain resume_eq
    exact ⟨shows.plain_eq.trans hplain, _, shows.follows follows⟩
  | @still e e' r hold hold' resume_eq =>
    have keeps : Keeps e e' := resume_serves hplain resume_eq
    rw [List.append_nil]
    exact ⟨keeps.plain_eq.trans hplain, log, keeps.follows follows⟩
  | selected | progressed => exact ⟨hplain, log, follows.other (by simp)⟩
  | released =>
    rw [List.append_nil]
    exact ⟨hplain, log, follows⟩

end

/-! ## Histories -/

/-- What rehearsals run epochs and lookups with. -/
def scripted (p : SyncPolicy) (lifetime : Duration) : Setup Backstage := ⟨collaborators, p, lifetime⟩

/-- An epoch under way. -/
structure Underway where
  trigger : Trigger
  cancelled : Bool
  stage : Stage

/-- The epoch that is under way after some progress, unless it is over. -/
def Underway.of (trigger : Trigger) (cancelled : Bool) : Standing → Option Underway
  | .ended _ => none
  | .under stage => some ⟨trigger, cancelled, stage⟩

/-- What can become of what programs run in, and the epoch that is under way. Others may do anything
in between, as long as they leave the stores alone. -/
inductive Rehearsed (p : SyncPolicy) (lifetime : Duration) : Env Backstage → Option Underway → Prop
  | cold {e : Env Backstage} (outside_eq : e.outside = .create .cold false) :
    Rehearsed p lifetime e none
  | meanwhile {e e' : Env Backstage} {o : Option Underway} (rehearsed : Rehearsed p lifetime e o)
    (later : e.now ≤ e'.now) (cache_eq : e'.outside.cache = e.outside.cache)
    (versions_eq : e'.outside.versions = e.outside.versions)
    (plain_eq : e'.outside.plainCache = e.outside.plainCache) : Rehearsed p lifetime e' o
  | purged {e : Env Backstage} {o : Option Underway} (rehearsed : Rehearsed p lifetime e o) :
    Rehearsed p lifetime { e with outside := { e.outside with
      cache := (e.outside.cache.purge (Backstage.instant e.now)).2 } } o
  /-- A lookup is answered, at once or later. -/
  | looked {e e' : Env Backstage} {o : Option Underway} {raw : String} {h : List Exchange}
    {r : Request} {a : r.Answer} (rehearsed : Rehearsed p lifetime e o)
    (asks : (lookup lifetime raw).Asks h r)
    (answered : e.respond collaborators false r = (e', .answer a) ∨
      ∃ hold, e.resume collaborators false r hold = (e', .answer a)) : Rehearsed p lifetime e' o
  /-- An epoch is let in. -/
  | begun {e e' : Env Backstage} {trigger : Trigger} {cancelled : Bool} {standing : Standing}
    (rehearsed : Rehearsed p lifetime e none)
    (begin_eq : beginEpoch (scripted p lifetime) cancelled e trigger = (e', .ok standing)) :
    Rehearsed p lifetime e' (Underway.of trigger cancelled standing)
  /-- The epoch goes on, and may have been cancelled before. -/
  | resumed {e e' : Env Backstage} {u : Underway} {later : Bool} {standing : Standing}
    (rehearsed : Rehearsed p lifetime e (some u)) (stays : u.cancelled = true → later = true)
    (resume_eq : u.stage.resume (scripted p lifetime) later e = (e', standing)) :
    Rehearsed p lifetime e' (Underway.of u.trigger later standing)

/-- The stores are those of a history, to which the epoch under way belongs. -/
def Recorded (p : SyncPolicy) (e : Env Backstage) : Option Underway → Prop
  | none => ∃ log, History p (e.outside.world e.now log)
  | some u =>
    ∃ start t log, History p start ∧ Run p u.trigger t u.stage.situation ∧
      wasCancelled t = u.cancelled ∧ u.stage.situation.AtRest ∧
      Follows start t (e.outside.world e.now log)

section

variable {p : SyncPolicy} {lifetime : Duration} {o : Option Underway}

/-- What happens outside of epochs is recorded. -/
theorem Recorded.outside (recorded : Recorded p e o)
    (step : ∀ log, ∃ log', Outside (e.outside.world e.now log) (e'.outside.world e'.now log')) :
    Recorded p e' o := by
  cases o with
  | none =>
    obtain ⟨log, history⟩ := recorded
    obtain ⟨log', step⟩ := step log
    exact ⟨log', history.outside step⟩
  | some u =>
    obtain ⟨start, t, log, history, run, hc, hrest, follows⟩ := recorded
    obtain ⟨log', step⟩ := step log
    exact ⟨start, t, log', history, run, hc, hrest, follows.outside step⟩

/-- What an epoch has come to is recorded. -/
theorem recorded_of {trigger : Trigger} {standing : Standing} {start : World} {t : List Moment}
    {log : List (Instant × Exchange)} (history : History p start)
    (run : Run p trigger t standing.situation) (hc : wasCancelled t = cancelled)
    (hrest : standing.AtRest) (follows : Follows start t (e.outside.world e.now log)) :
    Recorded p e (Underway.of trigger cancelled standing) := by
  cases standing with
  | ended epoch => exact ⟨log, history.epoch run follows⟩
  | under stage => exact ⟨start, t, log, history, run, hc, hrest, follows⟩

/-- A cancellation leaves the stores alone. -/
theorem follows_cancelled {start w : World} {t u : List Moment} (hu : u ⊆ [.cancelled])
    (follows : Follows start t w) : Follows start (t ++ u) w := by
  induction u generalizing t with
  | nil => simpa using follows
  | cons m u ih =>
    obtain ⟨hm, hrest⟩ := List.cons_subset.1 hu
    obtain rfl := List.mem_singleton.1 hm
    rw [← List.singleton_append, ← List.append_assoc]
    exact ih hrest (follows.other (by simp))

/-- An epoch that is let in after a history is recorded. -/
theorem recorded_begun {trigger : Trigger} {standing : Standing} {log : List (Instant × Exchange)}
    (hplain : e.outside.plainCache = false) (history : History p (e.outside.world e.now log))
    (begin_eq : runEpoch (scripted p lifetime) cancelled e trigger = (e', standing)) :
    e'.outside.plainCache = false ∧ Recorded p e' (Underway.of trigger cancelled standing) := by
  obtain ⟨t, run, hc, ht⟩ := exists_start p trigger cancelled
  obtain ⟨⟨u, run, hc, moves⟩, hrest⟩ := runEpoch_comes run hc begin_eq
  obtain ⟨hplain, log', follows⟩ := follows_of_moves moves hplain (follows_cancelled ht .start)
  exact ⟨hplain, recorded_of history run hc hrest follows⟩

/-- An epoch that goes on is recorded. -/
theorem Recorded.resumed {u : Underway} {later : Bool} {standing : Standing}
    (recorded : Recorded p e (some u)) (hplain : e.outside.plainCache = false)
    (stays : u.cancelled = true → later = true)
    (resume_eq : u.stage.resume (scripted p lifetime) later e = (e', standing)) :
    e'.outside.plainCache = false ∧ Recorded p e' (Underway.of u.trigger later standing) := by
  obtain ⟨start, t, log, history, run, hc, hrest, follows⟩ := recorded
  obtain ⟨v, run, hc, hv⟩ := run.exists_later hrest (hc ▸ stays)
  obtain ⟨⟨v', run, hc, moves⟩, hrest⟩ := Stage.resume_comes run hrest hc resume_eq
  obtain ⟨hplain, log', follows⟩ := follows_of_moves moves hplain (follows_cancelled hv follows)
  exact ⟨hplain, recorded_of history run hc hrest follows⟩

/-- **A rehearsal is a history**, or an epoch of one is under way. -/
theorem Rehearsed.recorded (rehearsed : Rehearsed p lifetime e o) :
    e.outside.plainCache = false ∧ Recorded p e o := by
  induction rehearsed with
  | @cold e outside_eq =>
    refine ⟨by rw [outside_eq]; rfl, [], ?_⟩
    rw [outside_eq]
    exact .cold _
  | @meanwhile e e' o _ later cache_eq versions_eq plain_eq ih =>
    refine ⟨plain_eq.trans ih.1, ih.2.outside fun log => ⟨log, ?_⟩⟩
    have hnow : Backstage.instant e.now + (Backstage.instant e'.now - Backstage.instant e.now) =
        Backstage.instant e'.now := Nat.add_sub_of_le (Nat.mul_le_mul_right _ later)
    have htick := Outside.tick (w := e.outside.world e.now log)
      (Backstage.instant e'.now - Backstage.instant e.now)
    simpa [Backstage.world, hnow, cache_eq, versions_eq] using htick
  | purged _ ih => exact ⟨ih.1, ih.2.outside fun log => ⟨log, .purge⟩⟩
  | @looked e e' o raw h r a _ asks answered ih =>
    have shows : Shows e ⟨r, a⟩ e' := by
      obtain respond_eq | ⟨hold, resume_eq⟩ := answered
      · exact respond_serves ih.1 respond_eq
      · exact resume_serves ih.1 resume_eq
    refine ⟨shows.plain_eq.trans ih.1, ih.2.outside fun log =>
      ⟨(Backstage.instant e.now, ⟨r, a⟩) :: log, ?_⟩⟩
    rw [shows.world_eq log]
    exact .lookup asks (shows.answers log)
  | @begun e e' trigger cancelled standing _ begin_eq ih =>
    obtain ⟨hplain, log, history⟩ := ih
    unfold beginEpoch at begin_eq
    split at begin_eq
    · cases begin_eq
    · rename_i orchestrator _
      cases hepoch : runEpoch (scripted p lifetime) cancelled
        { e with orchestrator := orchestrator } trigger with
      | mk e₁ standing₁ =>
        rw [hepoch] at begin_eq
        cases begin_eq
        exact recorded_begun (e := { e with orchestrator := orchestrator }) hplain history hepoch
  | resumed _ stays resume_eq ih => exact ih.2.resumed ih.1 stays resume_eq

/-- **Between two epochs of a rehearsal what is committed is cached.** -/
theorem Rehearsed.cached (rehearsed : Rehearsed p lifetime e none) :
    ∃ log, (e.outside.world e.now log).Cached p := by
  obtain ⟨-, log, history⟩ := rehearsed.recorded
  exact ⟨log, history.cached⟩

end

end ContentSync.Rehearsal
