import ContentSync.Proofs.Engine.Closing
import ContentSync.Proofs.Engine.Waiting

/-!
# Every call has its limit

An epoch makes no call that it would wait for however long it takes. The calls to the content service
have one limit, and those to the cache and the version store another one.

* `SyncPolicy.limit`, `SyncPolicy.requestOf` — the limit of a call, and the request by which an epoch
  makes it;
* `Run.eq_requestOf` — an epoch makes its calls by no other requests;
* `Begun` / `Env.begun_of_respond` — how something begins to be waited for, and until when;
* `Hold.Since` / `Begun.since` — a call has no more time than its limit;
* `Wait.resume_overdue` — a call whose limit has passed is given up, and has brought nothing.
-/

set_option autoImplicit false

namespace ContentSync

/-- The calls to the content service. -/
def Call.isUpstream : Call → Bool
  | metadata | fetch _ _ _ | player _ => true
  | versions | commit _ _ | read _ | exist _ | write _ _ _ | invalidate _ => false

/-- How long a call is waited for. -/
def SyncPolicy.limit (p : SyncPolicy) (c : Call) : Duration :=
  if c.isUpstream then p.fetchTimeout else p.ioTimeout

/-- The request by which an epoch makes a call. -/
def SyncPolicy.requestOf (p : SyncPolicy) (c : Call) : Request :=
  if c.isUpstream then .attempt c (p.limit c) else .call c (p.limit c)

namespace Engine

open Program

/-! ## The requests of an epoch -/

section

variable {p : SyncPolicy} {trigger : Trigger} {t u : List Moment} {s : Situation} {h : List Exchange}
  {q : Request}

/-- **A kind is processed with calls that are limited as calls to the stores are.** -/
theorem asks_processKind_limit {r : KindReport} {fetched : List Fetched}
    (hq : (processKind p fetched r).Asks h q) {c : Call} (hc : q.call? = some c) :
    q = p.requestOf c := by
  obtain hq | ⟨_, _, reports, -, -, hq⟩ := asks_processKind hq
  · obtain ⟨_, f, _, _, _, _, -, -, -, hq⟩ := asks_writeTargets hq
    obtain ⟨payload, -, ⟨-, rfl⟩ | ⟨_, -, hq⟩ | ⟨_, _, -, -, rfl⟩⟩ := asks_writeTarget hq
    · cases hc
    · obtain rfl | ⟨old, -, rfl⟩ := asks_comparison hq <;> cases hc
      rfl
    · cases hc
      rfl
  · obtain ⟨-, ⟨-, rfl⟩ | ⟨-, rfl⟩ | ⟨_, -, hq⟩⟩ := asks_commitKind hq
    · cases hc
    · cases hc
      rfl
    · obtain ⟨old, -, -, target, -, rfl⟩ := asks_expirePrevious hq
      cases hc
      rfl

theorem Request.IsOfCheck.eq_requestOf (hq : q.IsOfCheck p) {c : Call} (hc : q.call? = some c) :
    q = p.requestOf c := by
  cases q with
  | publish | isCancelled | clock | announce | remember | pause | compute => cases hc
  | wait => exact hq.elim
  | call c' limit =>
    cases hc
    cases c <;> first | exact hq.elim | (obtain rfl : limit = p.ioTimeout := hq; rfl)
  | attempt c' limit =>
    cases hc
    cases c <;> first | exact hq.elim | (obtain rfl : limit = p.fetchTimeout := hq; rfl)

/-- **An epoch makes each of its calls by the request with the limit for it.** -/
theorem Run.eq_requestOf (run : Run p trigger t s) {w : Worker} (hs : s.Facing w q) {c : Call}
    (hc : q.call? = some c) : q = p.requestOf c := by
  cases hs with
  | checking _ next program_eq =>
    cases run.accounts with
    | checking thread =>
      have hpath := thread.path
      rw [program_eq] at hpath
      exact Request.IsOfCheck.eq_requestOf (asks_checking ⟨next, hpath⟩) hc
  | fetching _ mem next program_eq =>
    cases run.accounts with
    | fetching _ _ _ launched =>
      obtain ⟨job, -, hpath⟩ := launched.threads _ mem
      rw [program_eq] at hpath
      obtain ⟨rfl | ⟨length, rfl⟩, -⟩ := asks_fetchOne ⟨next, hpath⟩ <;> cases hc
      rfl
  | writing _ next program_eq =>
    have hconclusion : q.isOfConclusion = true → q = p.requestOf c := by
      intro hends
      rw [call?_of_isOfConclusion hends] at hc
      cases hc
    cases run.accounts with
    | concluding _ _ _ thread =>
      have hpath := thread.path
      rw [program_eq] at hpath
      exact hconclusion (asks_concluding ⟨next, hpath⟩)
    | writing _ _ _ _ thread =>
      have hpath := thread.path
      rw [program_eq] at hpath
      obtain hq | ⟨_, _, _, -, -, hq⟩ := asks_bind.1 ⟨next, hpath⟩
      · obtain ⟨-, rfl⟩ | ⟨_, -, rfl⟩ | ⟨_, _, -, hq⟩ := asks_writing hq
        · cases hc
        · cases hc
        · obtain ⟨_, r, _, _, _, _, -, -, -, hq⟩ := asks_processKinds hq
          exact asks_processKind_limit hq hc
      · exact hconclusion (asks_concluding hq)

end

/-! ## Waiting -/

section

variable {σ α : Type} {k : Collaborators σ} {cancelled : Bool} {e e' : Env σ}

/-- Something begins to be waited for, at a time and in a round. -/
inductive Begun (now round : Nat) : Request × Hold → Prop
  | opening (r : Request) : Begun now round (r, .opening round)
  | call {c : Call} {limit : Duration} (course : Course) :
    Begun now round (.call c limit, .underWay course
      (some (now + (course.within limit.milliseconds).1)) (course.within limit.milliseconds).2)
  | attempt {c : Call} {limit : Duration} (course : Course) :
    Begun now round (.attempt c limit, .underWay course
      (some (now + (course.within limit.milliseconds).1)) (course.within limit.milliseconds).2)
  | wait {c : Call} (course : Course) :
    Begun now round (.wait c, .underWay course (course.delay.map (now + ·)) false)
  | pausing (length : Duration) :
    Begun now round (.pause length, .pausing (now + length.milliseconds))
  | computing : Begun now round (.compute, .computing)

/-- A call is under way since a time. It ends by itself within its limit, or it is given up when that
passes. -/
inductive Hold.Since (limit start : Nat) : Hold → Prop
  | ends {course : Course} {delay : Nat} (delay_eq : course.delay = some delay)
    (delay_le : delay ≤ limit) : Since limit start (.underWay course (some (start + delay)) false)
  | passes {course : Course} (lt_delay : ∀ delay, course.delay = some delay → limit < delay) :
    Since limit start (.underWay course (some (start + limit)) true)

/-- A call ends by itself within a limit, or the limit comes first. -/
theorem Course.within_cases (course : Course) (limit : Nat) :
    (∃ delay, course.delay = some delay ∧ delay ≤ limit ∧ course.within limit = (delay, false)) ∨
      (∀ delay, course.delay = some delay → limit < delay) ∧ course.within limit = (limit, true) := by
  unfold Course.within
  cases hdelay : course.delay with
  | none => exact .inr ⟨nofun, rfl⟩
  | some delay =>
    by_cases hle : delay ≤ limit
    · exact .inl ⟨delay, rfl, hle, if_pos hle⟩
    · refine .inr ⟨fun d hd => ?_, if_neg hle⟩
      obtain rfl := Option.some.inj hd
      omega

theorem Course.since_within (course : Course) (limit start : Nat) :
    Hold.Since limit start (.underWay course (some (start + (course.within limit).1))
      (course.within limit).2) := by
  obtain ⟨delay, hdelay, hle, hwithin⟩ | ⟨hlt, hwithin⟩ := course.within_cases limit
  · rw [hwithin]
    exact .ends hdelay hle
  · rw [hwithin]
    exact .passes hlt

/-- **A call that begins to be waited for gives way first, or it has no more time than its limit.** -/
theorem Begun.since {p : SyncPolicy} {c : Call} {now round : Nat} {h : Hold}
    (hb : Begun now round (p.requestOf c, h)) :
    h = .opening round ∨ h.Since (p.limit c).milliseconds now := by
  unfold SyncPolicy.requestOf at hb
  split at hb <;> cases hb
  case isTrue.opening | isFalse.opening => exact .inl rfl
  all_goals exact .inr (Course.since_within ..)

namespace Env

theorem begun_of_openUnlimited {c : Call} {h : Hold}
    (heq : (e.openUnlimited k c).2 = .hold h) : Begun e.now e.round (.wait c, h) := by
  unfold openUnlimited at heq
  dsimp only at heq
  split at heq <;> cases heq
  exact .wait _

theorem hold_of_openLimited {c : Call} {limit : Nat} {h : Hold}
    (heq : (e.openLimited k c limit).2 = .hold h) :
    ∃ course : Course,
      h = .underWay course (some (e.now + (course.within limit).1)) (course.within limit).2 := by
  unfold openLimited at heq
  dsimp only at heq
  split at heq
  · cases heq
  · rename_i length late hwithin
    cases heq
    refine ⟨(e.start k c).1, ?_⟩
    rw [hwithin]
    rfl

theorem hold_of_callLimited {c : Call} {limit : Nat} {h : Hold}
    (heq : (e.callLimited k c limit).2 = .hold h) :
    h = .opening e.round ∨ ∃ course : Course,
      h = .underWay course (some (e.now + (course.within limit).1)) (course.within limit).2 := by
  unfold callLimited at heq
  split at heq
  · split at heq <;> cases heq
    exact .inl rfl
  · exact .inr (hold_of_openLimited heq)

/-- **How a request begins to be waited for.** -/
theorem begun_of_respond {r : Request} {h : Hold}
    (heq : e.respond k cancelled r = (e', .hold h)) : Begun e.now e.round (r, h) := by
  cases r with
  | publish | isCancelled | clock | announce | remember => cases heq
  | wait c =>
    simp only [respond, callUnlimited] at heq
    split at heq
    · cases heq
      exact .opening _
    · exact begun_of_openUnlimited (congrArg Prod.snd heq)
  | call c limit =>
    obtain rfl | ⟨course, rfl⟩ := hold_of_callLimited (congrArg Prod.snd heq)
    · exact .opening _
    · exact .call course
  | attempt c limit =>
    simp only [respond] at heq
    split at heq
    · cases heq
    · have hsnd := Reply.map_eq_hold (congrArg Prod.snd heq)
      obtain rfl | ⟨course, rfl⟩ := hold_of_callLimited hsnd
      · exact .opening _
      · exact .attempt course
  | pause length =>
    simp only [respond] at heq
    split at heq
    · cases heq
    · split at heq <;> cases heq
      exact .pausing length
  | compute =>
    cases heq
    exact .computing

/-- A request that goes on to wait waits for the same as before, or has begun anew. -/
theorem begun_of_resume {r : Request} {h h' : Hold}
    (heq : e.resume k cancelled r h = (e', .hold h')) : h' = h ∨ Begun e.now e.round (r, h') := by
  cases r with
  | publish | isCancelled | clock | announce | remember =>
    cases heq
    exact .inl rfl
  | wait c =>
    cases h with
    | opening => exact .inr (begun_of_openUnlimited (congrArg Prod.snd heq))
    | underWay => cases heq
    | pausing | computing =>
      cases heq
      exact .inl rfl
  | call c limit =>
    cases h with
    | opening =>
      obtain ⟨course, rfl⟩ := hold_of_openLimited (congrArg Prod.snd heq)
      exact .inr (.call course)
    | underWay => cases heq
    | pausing | computing =>
      cases heq
      exact .inl rfl
  | attempt c limit =>
    cases h with
    | opening =>
      simp only [resume] at heq
      split at heq
      · cases heq
      · have hsnd := Reply.map_eq_hold (congrArg Prod.snd heq)
        obtain ⟨course, rfl⟩ := hold_of_openLimited hsnd
        exact .inr (.attempt course)
    | underWay =>
      simp only [resume] at heq
      split at heq <;> cases heq
    | pausing | computing =>
      cases heq
      exact .inl rfl
  | pause | compute =>
    cases h <;> cases heq
    all_goals exact .inl rfl

end Env

/-! ## Limits that pass -/

variable {p : SyncPolicy} {c : Call} {w : Wait α} {course : Course} {due : Nat} {late : Bool}

/-- A program can go on when the time of its call has come. -/
theorem Wait.isNow_of_due (hhold : w.hold = .underWay course (some due) late) (hdue : due ≤ e.now) :
    (w.prospect cancelled e).isNow = true := by
  unfold Wait.prospect
  split
  · rfl
  · simp [hhold, Prospect.ofTime, hdue, Prospect.isNow, Prospect.rank?]

/-- A call that is gone on with when it is under way is answered. -/
theorem Env.hold_ne_of_resume {r : Request} {h h' : Hold} (hr : r.call? = some c)
    (heq : e.resume k cancelled r h = (e', .hold h')) (due : Option Nat) :
    h ≠ .underWay course due late := by
  rintro rfl
  cases r with
  | publish | isCancelled | clock | announce | remember | pause | compute => cases hr
  | wait | call => cases heq
  | attempt =>
    simp only [Env.resume] at heq
    split at heq <;> cases heq

/-- **A call whose limit has passed is given up**, and the program goes on without an answer. -/
theorem Wait.resume_overdue (hrequest : w.request = p.requestOf c)
    (hhold : w.hold = .underWay course (some due) true) (hdue : due ≤ e.now) :
    ∃ a : w.request.Answer, (∀ x, ¬ Exchange.Brings c x ⟨w.request, a⟩) ∧
      w.resume k cancelled e = advance k cancelled (e.giveUp k c) (w.next a) := by
  obtain ⟨sequence, r, h, next⟩ := w
  obtain rfl : h = _ := hhold
  have hnow : ∀ r next, ((⟨sequence, r, .underWay course (some due) true, next⟩ : Wait α).prospect
      cancelled e).isNow = true := fun _ _ => Wait.isNow_of_due rfl hdue
  unfold SyncPolicy.requestOf at hrequest
  split at hrequest
  · obtain rfl : r = _ := hrequest
    unfold Wait.resume
    rw [if_pos (hnow _ _)]
    cases cancelled with
    | true => exact ⟨.cancelled, (by rintro x ⟨⟩), rfl⟩
    | false => exact ⟨.overdue, (by rintro x ⟨⟩), rfl⟩
  · obtain rfl : r = _ := hrequest
    unfold Wait.resume
    rw [if_pos (hnow _ _)]
    exact ⟨none, (by rintro x ⟨⟩), rfl⟩

end

end Engine

end ContentSync
