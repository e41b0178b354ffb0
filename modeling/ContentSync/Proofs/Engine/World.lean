import ContentSync.Engine.Lookup
import ContentSync.Proofs.Engine.Calls
import ContentSync.Proofs.Store.MemoryCache

/-!
# The stores over time

A cache in memory and the committed versions, and everything that calls have done to them.

* `World` — the stores at a time, and the log of all answers;
* `World.after` — what an answer leaves behind; a call that fails or comes too late has no effect;
* `World.lastTouch` — the last write or removal of a key that took effect;
* `World.Sound` — readers see what was written last, until its lifetime has passed;
* `Outside` — what can happen at any time: time passes, the cache is purged, players are looked up;
* `Follows`, `History` — the stores during an epoch, and over any number of epochs;
* `World.follow?` — what becomes of the stores when nothing happens but a given epoch.
-/

set_option autoImplicit false

namespace ContentSync

namespace Exchange

/-- The call that was answered successfully. -/
def done? : Exchange → Option Call
  | ⟨.wait c, .ok _⟩ => some c
  | ⟨.call c _, some (.ok _)⟩ => some c
  | ⟨.attempt c _, .answered (.ok _)⟩ => some c
  | _ => none

theorem Brings.done? {c : Call} {x : c.Answer} {e : Exchange} (hb : e.Brings c x) :
    e.done? = some c := by
  cases hb <;> rfl

theorem exists_of_done? {c : Call} {e : Exchange} (hd : e.done? = some c) :
    ∃ x, e.Brings c x := by
  unfold Exchange.done? at hd
  split at hd
  · cases hd
    exact ⟨_, .wait⟩
  · cases hd
    exact ⟨_, .call _⟩
  · cases hd
    exact ⟨_, .attempt _⟩
  · cases hd

end Exchange

namespace Engine

open Program

/-- Something that was done to a key. -/
inductive Touch where
  | written (instant : Instant) (payload : Json) (lifetime : Duration)
  | removed

/-- What a call does to a key at a time. -/
def touch? (now : Instant) (key : CacheKey) : Call → Option Touch
  | .write k payload lifetime => if k = key then some (.written now payload lifetime) else none
  | .invalidate k => if k = key then some .removed else none
  | _ => none

/-- The stores at a time. -/
structure World where
  now : Instant
  cache : MemoryCache
  versions : StoredVersions
  /-- All answers with their times, the latest first. -/
  log : List (Instant × Exchange)

namespace World

/-- Nothing has happened yet. -/
def cold (now : Instant) : World := ⟨now, .empty, .cold, []⟩

/-- What the stores answer to a call. Of the content service nothing is known. -/
def Gives (w : World) : (c : Call) → c.Answer → Prop
  | .versions, stored => stored = w.versions
  | .read key, found => found = w.cache.live? w.now key
  | .exist key, found => found = w.cache.contains w.now key
  | _, _ => True

/-- An answer that the stores can give. Any call may also fail. -/
def Answers (w : World) (e : Exchange) : Prop :=
  ∀ (c : Call) (x : c.Answer), e.Brings c x → w.Gives c x

/-- A call takes effect. -/
def apply (w : World) : Call → World
  | .commit kind v => { w with versions := w.versions.set kind v }
  | .read key => { w with cache := (w.cache.read w.now key).2 }
  | .write key payload lifetime => { w with cache := w.cache.write w.now key payload lifetime }
  | .invalidate key => { w with cache := w.cache.invalidate key }
  | _ => w

/-- What an answer leaves behind. -/
def after (w : World) (e : Exchange) : World :=
  let next := (e.done?.map w.apply).getD w
  { next with log := (w.now, e) :: w.log }

/-- The last thing that was done to a key. -/
def lastTouch (w : World) (key : CacheKey) : Option Touch :=
  w.log.findSome? fun d => d.2.done?.bind (touch? d.1 key)

/-- What is left of a write at a time. -/
def visible (w : World) (later : Instant) (key : CacheKey) : Option Json :=
  match w.lastTouch key with
  | some (.written instant payload lifetime) =>
    if lifetime.nanoseconds ≤ later - instant then none else some payload
  | _ => none

/-- The content service has returned a payload of a target. -/
def Returned (p : SyncPolicy) (w : World) (target : FetchTarget) (v : Version) (payload : Json) :
    Prop :=
  ∃ d ∈ w.log, d.2.Brings (.fetch target v p.unzip) payload

/-- The last thing that was done to the key of a target was to write a payload of it. -/
def Holds (p : SyncPolicy) (w : World) (target : FetchTarget) (v : Version) : Prop :=
  ∃ instant payload lifetime,
    w.lastTouch (target.key v) = some (.written instant payload lifetime) ∧
      w.Returned p target v payload

variable {p : SyncPolicy} {w : World} {e : Exchange} {key : CacheKey}

@[simp] theorem now_after : (w.after e).now = w.now := by
  unfold after
  cases e.done? with
  | none => rfl
  | some c => cases c <;> rfl

@[simp] theorem log_after : (w.after e).log = (w.now, e) :: w.log := rfl

theorem lastTouch_after :
    (w.after e).lastTouch key = (e.done?.bind (touch? w.now key)).or (w.lastTouch key) := by
  simp only [lastTouch, log_after, List.findSome?_cons]
  cases e.done?.bind (touch? w.now key) <;> rfl

theorem lastTouch_after_of_none (hd : ∀ c, e.done? = some c → touch? w.now key c = none) :
    (w.after e).lastTouch key = w.lastTouch key := by
  rw [lastTouch_after]
  cases hdone : e.done? with
  | none => rfl
  | some c => simp [hd c hdone]

theorem Returned.after {target : FetchTarget} {v : Version} {payload : Json}
    (hr : w.Returned p target v payload) : (w.after e).Returned p target v payload := by
  obtain ⟨d, hd, hb⟩ := hr
  exact ⟨d, List.mem_cons_of_mem _ hd, hb⟩

/-- A payload stays where it is as long as nothing is done to its key. -/
theorem Holds.after {target : FetchTarget} {v : Version} (hh : w.Holds p target v)
    (hd : ∀ c, e.done? = some c → touch? w.now (target.key v) c = none) :
    (w.after e).Holds p target v := by
  obtain ⟨instant, payload, lifetime, htouch, hreturned⟩ := hh
  exact ⟨instant, payload, lifetime, (lastTouch_after_of_none hd).trans htouch, hreturned.after⟩

/-! ## What readers see -/

/-- Readers see what was written last, until its lifetime has passed. -/
structure Sound (w : World) : Prop where
  distinct : w.cache.Distinct
  live?_eq : ∀ later key, w.now ≤ later → w.cache.live? later key = w.visible later key

theorem sound_cold (now : Instant) : (cold now).Sound :=
  ⟨MemoryCache.distinct_empty, fun _ _ _ => rfl⟩

/-- **Readers see what was written last, whatever is answered.** -/
theorem Sound.after (hs : w.Sound) : (w.after e).Sound := by
  obtain ⟨hdistinct, hlive⟩ := hs
  have hkeep : ∀ {later key}, (∀ c, e.done? = some c → touch? w.now key c = none) →
      (w.after e).visible later key = w.visible later key := by
    intro later key hd
    rw [visible, visible, lastTouch_after_of_none hd]
  cases hdone : e.done? with
  | none =>
    have hcache : (w.after e).cache = w.cache := by simp [World.after, hdone]
    refine ⟨hcache ▸ hdistinct, fun later key hle => ?_⟩
    rw [hcache, hkeep (by simp [hdone])]
    exact hlive later key (by simpa using hle)
  | some c =>
    have hcache : (w.after e).cache = (w.apply c).cache := by simp [World.after, hdone]
    cases c with
    | metadata | fetch | player | versions | commit | exist =>
      refine ⟨hcache ▸ hdistinct, fun later key hle => ?_⟩
      rw [hcache, hkeep (by simp [hdone, touch?])]
      exact hlive later key (by simpa using hle)
    | read k =>
      refine ⟨hcache ▸ hdistinct.read w.now k, fun later key hle => ?_⟩
      rw [now_after] at hle
      rw [hcache, hkeep (by simp [hdone, touch?])]
      exact (w.cache.live?_read hle k key).trans (hlive later key hle)
    | write k payload lifetime =>
      refine ⟨hcache ▸ hdistinct.write w.now k payload lifetime, fun later key hle => ?_⟩
      rw [hcache]
      by_cases hk : key = k
      · subst hk
        simp [apply, MemoryCache.live?_write_self, visible, lastTouch_after, hdone, touch?]
      · rw [hkeep (by simp [hdone, touch?, Ne.symm hk])]
        exact (w.cache.live?_write_of_ne w.now later hk payload lifetime).trans
          (hlive later key (by simpa using hle))
    | invalidate k =>
      refine ⟨hcache ▸ hdistinct.erase k, fun later key hle => ?_⟩
      rw [hcache]
      by_cases hk : key = k
      · subst hk
        simp [apply, MemoryCache.live?_invalidate_self, visible, lastTouch_after, hdone, touch?]
      · rw [hkeep (by simp [hdone, touch?, Ne.symm hk])]
        exact (w.cache.live?_invalidate_of_ne later hk).trans
          (hlive later key (by simpa using hle))

end World

/-! ## Histories -/

/-- What can happen at any time. -/
inductive Outside (w : World) : World → Prop
  | tick (length : Nat) : Outside w { w with now := w.now + length }
  | purge : Outside w { w with cache := (w.cache.purge w.now).2 }
  /-- An answer to the lookup of a player. -/
  | lookup {lifetime : Duration} {raw : String} {h : List Exchange} {e : Exchange}
    (asks : (lookup lifetime raw).Asks h e.request) (answers : w.Answers e) : Outside w (w.after e)

/-- The stores while an epoch runs. -/
inductive Follows (start : World) : List Moment → World → Prop
  | start : Follows start [] start
  | outside {t : List Moment} {w w' : World} (follows : Follows start t w) (step : Outside w w') :
    Follows start t w'
  | answered {t : List Moment} {w : World} {worker : Worker} {e : Exchange}
    (follows : Follows start t w) (answers : w.Answers e) :
    Follows start (t ++ [.answered worker e]) (w.after e)
  | other {t : List Moment} {w : World} {m : Moment} (follows : Follows start t w)
    (silent : ∀ worker e, m ≠ .answered worker e) : Follows start (t ++ [m]) w

/-- The stores over any number of epochs, each of which may have come to its end or not. -/
inductive History (p : SyncPolicy) : World → Prop
  | cold (now : Instant) : History p (.cold now)
  | outside {w w' : World} (history : History p w) (step : Outside w w') : History p w'
  | epoch {w w' : World} {trigger : Trigger} {t : List Moment} {s : Situation}
    (history : History p w) (run : Run p trigger t s) (follows : Follows w t w') : History p w'

theorem Outside.sound {w w' : World} (step : Outside w w') (hs : w.Sound) : w'.Sound := by
  cases step with
  | tick length =>
    exact ⟨hs.distinct, fun later key hle => hs.live?_eq later key (Nat.le_of_add_right_le hle)⟩
  | purge =>
    refine ⟨hs.distinct.purge w.now, fun later key hle => ?_⟩
    exact (hs.distinct.live?_purge hle key).trans (hs.live?_eq later key hle)
  | lookup asks answers => exact hs.after

theorem Follows.sound {start w : World} {t : List Moment} (follows : Follows start t w)
    (hs : start.Sound) : w.Sound := by
  induction follows with
  | start => exact hs
  | outside _ step ih => exact step.sound ih
  | answered _ _ ih => exact ih.after
  | other _ _ ih => exact ih

/-- **Readers always see what was written last, until its lifetime has passed.** -/
theorem History.sound {p : SyncPolicy} {w : World} (history : History p w) : w.Sound := by
  induction history with
  | cold now => exact World.sound_cold now
  | outside _ step ih => exact step.sound ih
  | epoch _ _ follows ih => exact follows.sound ih

/-! ## Following an epoch -/

namespace World

/-- Whether the stores give an answer. -/
def surelyGives (w : World) : (c : Call) → c.Answer → Bool
  | .versions, stored => stored = w.versions
  | .read key, found => found = w.cache.live? w.now key
  | .exist key, found => found == w.cache.contains w.now key
  | _, _ => true

def surelyAnswers (w : World) : Exchange → Bool
  | ⟨.wait c, .ok x⟩ => w.surelyGives c x
  | ⟨.call c _, some (.ok x)⟩ => w.surelyGives c x
  | ⟨.attempt c _, .answered (.ok x)⟩ => w.surelyGives c x
  | _ => true

/-- What an epoch leaves behind, if the stores surely give its answers. -/
def follow? (w : World) : List Moment → Option World
  | [] => some w
  | .answered _ e :: rest => if w.surelyAnswers e then (w.after e).follow? rest else none
  | _ :: rest => w.follow? rest

variable {w : World} {e : Exchange}

theorem gives_of_surelyGives {c : Call} {x : c.Answer} (h : w.surelyGives c x = true) :
    w.Gives c x := by
  cases c with
  | versions | read | exist => simpa [surelyGives, Gives] using h
  | metadata | fetch | player | commit | write | invalidate => trivial

theorem answers_of_surelyAnswers (h : w.surelyAnswers e = true) : w.Answers e := by
  intro c x hb
  cases hb <;> exact gives_of_surelyGives h

/-- **What is followed is a history of the stores.** -/
theorem follows_of_follow? {start w' : World} {t u : List Moment} (follows : Follows start t w)
    (h : w.follow? u = some w') : Follows start (t ++ u) w' := by
  induction u generalizing t w with
  | nil =>
    obtain rfl := Option.some.inj h
    simpa using follows
  | cons m u ih =>
    rw [← List.singleton_append, ← List.append_assoc]
    cases m with
    | answered worker e =>
      simp only [follow?, Option.ite_none_right_eq_some] at h
      exact ih (follows.answered (answers_of_surelyAnswers h.1)) h.2
    | cancelled | asked | selected | progressed =>
      exact ih (follows.other (by simp)) h

/-- While nothing happens but an epoch, no time passes. -/
theorem now_of_follow? {w' : World} {u : List Moment} (h : w.follow? u = some w') : w'.now = w.now := by
  induction u generalizing w with
  | nil =>
    obtain rfl := Option.some.inj h
    rfl
  | cons m u ih =>
    cases m with
    | answered worker e =>
      simp only [follow?, Option.ite_none_right_eq_some] at h
      rw [ih h.2, now_after]
    | cancelled | asked | selected | progressed => exact ih h

theorem follows_of_start {start w : World} {t : List Moment} (h : start.follow? t = some w) :
    Follows start t w := by
  simpa using follows_of_follow? .start h

end World

end Engine

end ContentSync
