import ContentSync.Proofs.Engine.Determined
import ContentSync.Proofs.Engine.Idempotence

/-!
# Fates

What becomes of the calls of an epoch can be settled beforehand, without settling when anything
happens: a fate says for every attempt how it ends, and for every call to the stores whether it is
answered in time. What the stores answer then is up to what they hold.

* `Fate` / `Fate.Governs` — how calls turn out, and a history in which they have done so;
* `Fated` — an epoch that is over, was never cancelled, and has met its fate;
* `Unexpired` — an entry lives as long as an epoch lasts;
* `Fate.Settles` — an answer that follows from the fate and from what the stores hold at the start;
* `Fated.settles` — every answer to the epoch itself does, whenever it was given;
* `Fate.Settles.unique` — and so answers to equal requests are equal.
-/

set_option autoImplicit false

namespace ContentSync

namespace Exchange

/-- How an attempt to learn the advertised versions has ended. -/
def metadataEnding? : Exchange → Option (Ending Metadata)
  | ⟨.attempt .metadata _, ending⟩ => some ending
  | _ => none

/-- How an attempt to fetch a target has ended. -/
def fetchEnding? (target : FetchTarget) : Exchange → Option (Ending Json)
  | ⟨.attempt (.fetch other _ _) _, ending⟩ => if other = target then some ending else none
  | _ => none

end Exchange

/-- A call to the cache or to the version store. -/
def Call.isOfStores : Call → Bool
  | versions | commit _ _ | read _ | exist _ | write _ _ _ | invalidate _ => true
  | metadata | fetch _ _ _ | player _ => false

/-- The key of the entry that a call looks at. -/
def Call.lookedAt? : Call → Option CacheKey
  | read key | exist key => some key
  | _ => none

/-- A request whose answer can be settled beforehand, however often it is made. -/
def Request.isSettled : Request → Bool
  | call c _ => c.isOfStores
  | publish _ | isCancelled | remember _ | pause _ | compute => true
  | clock | announce _ | wait _ | attempt _ _ => false

/-- How an attempt ends that is not cancelled: with an answer, or not in time. -/
def Ending.ofAnswer {α : Type} : Option (Except Failure α) → Ending α
  | some result => .answered result
  | none => .overdue

namespace MemoryCache

/-- What a reader sees in the end as in the beginning is seen all the time. -/
theorem live?_eq_of_between {c : MemoryCache} {now mid later : Instant} {k : CacheKey}
    (h : c.live? later k = c.live? now k) (hmid : now ≤ mid) (hlater : mid ≤ later) :
    c.live? mid k = c.live? now k := by
  simp only [live?] at h ⊢
  cases hstored : c.stored? k with
  | none => rfl
  | some e =>
    simp only [hstored] at h ⊢
    by_cases he : e.expired mid = true
    · rw [if_pos (expired_mono he hlater)] at h
      rw [if_pos he]
      exact h
    · have hnow : ¬ e.expired now = true := fun hn => he (expired_mono hn hmid)
      rw [if_neg he, if_neg hnow]

end MemoryCache

namespace Engine

open Program

/-! ## What has become of calls -/

/-- All answers, in order. -/
def answers (t : List Moment) : List Exchange :=
  t.filterMap fun m =>
    match m with
    | .answered _ e => some e
    | _ => none

/-- How the attempts to learn the advertised versions have ended, in order. -/
def metadataEndings (t : List Moment) : List (Ending Metadata) :=
  (answers t).filterMap Exchange.metadataEnding?

/-- How the attempts to fetch a target have ended, in order. -/
def fetchEndings (target : FetchTarget) (t : List Moment) : List (Ending Json) :=
  (answers t).filterMap (Exchange.fetchEnding? target)

/-- Whether a call to the stores was answered in time, and whether it has failed. -/
def turnout {α : Type} (answer : Option (Except Failure α)) : Option (Except Failure Unit) :=
  answer.map (·.map fun _ => ())

/-- How calls turn out. Attempts are numbered; an epoch makes none of its calls to the stores
twice. -/
structure Fate where
  /-- The answers to the attempts to learn the advertised versions. Where there is none, the limit
  passes. -/
  metadata : Nat → Option (Except Failure Metadata)
  fetch : FetchTarget → Nat → Option (Except Failure Json)
  store : Call → Option (Except Failure Unit)

/-- Everything has turned out as a fate says. -/
structure Fate.Governs (fate : Fate) (t : List Moment) : Prop where
  metadata : ∀ n (ending : Ending Metadata), (metadataEndings t)[n]? = some ending →
    ending = .ofAnswer (fate.metadata n)
  fetch : ∀ target n (ending : Ending Json), (fetchEndings target t)[n]? = some ending →
    ending = .ofAnswer (fate.fetch target n)
  store : ∀ w c limit answer, Moment.answered w ⟨.call c limit, answer⟩ ∈ t →
    turnout answer = fate.store c

/-- An epoch that is over, was never cancelled, and has met its fate. -/
structure Fated (p : SyncPolicy) (trigger : Trigger) (fate : Fate) (start : World) (t : List Moment)
    (epoch : Epoch) (w : World) : Prop where
  run : Run p trigger t (.ended epoch)
  uncancelled : wasCancelled t = false
  governed : fate.Governs t
  follows : Follows start t w

/-- What is cached of a key at the start has not expired at the end. -/
def Unexpired (start w : World) (key : CacheKey) : Prop :=
  start.cache.live? w.now key = start.cache.live? start.now key

/-! ## Answers that are settled beforehand -/

/-- The answer follows from the fate of the call and from what the stores hold at the start. -/
def Fate.Settles (fate : Fate) (start : World) : Exchange → Prop
  | ⟨.isCancelled, looked⟩ => looked = false
  | ⟨.pause _, cut⟩ => cut = false
  | ⟨.call c _, answer⟩ =>
    turnout answer = fate.store c ∧ ∀ x, answer = some (.ok x) → start.Gives c x
  | _ => True

/-- Two stores give the same answer to a call. -/
def World.Agrees (w w' : World) (c : Call) : Prop := ∀ x x', w.Gives c x → w'.Gives c x' → x = x'

theorem World.agrees_self (w : World) {c : Call} (hc : c.isOfStores = true) : w.Agrees w c := by
  intro x x' hx hx'
  cases c with
  | versions | read | exist =>
    exact Eq.trans (b := _) hx hx'.symm
  | commit | write | invalidate => rfl
  | metadata | fetch | player => cases hc

/-- A call to the stores that turns out alike, and that the stores would answer alike, is answered
alike. -/
theorem answer_unique {w w' : World} {c : Call} {a a' : Option (Except Failure c.Answer)}
    (hturnout : turnout a = turnout a') (hagrees : w.Agrees w' c)
    (hgives : ∀ x, a = some (.ok x) → w.Gives c x)
    (hgives' : ∀ x, a' = some (.ok x) → w'.Gives c x) : a = a' := by
  obtain _ | f | x := a <;> obtain _ | f' | x' := a' <;>
    simp only [turnout, Option.map_none, Option.map_some, Except.map, Option.some.injEq,
      Except.error.injEq, Except.ok.injEq, reduceCtorEq] at hturnout ⊢
  · exact hturnout
  · exact hagrees x x' (hgives x rfl) (hgives' x' rfl)

/-- **Settled answers to equal requests are equal**, where calls to the stores turn out alike. -/
theorem Fate.Settles.unique {fate fate' : Fate} {start start' : World} {e e' : Exchange}
    (hs : fate.Settles start e) (hs' : fate'.Settles start' e') (hr : e.request = e'.request)
    (hsettled : e.request.isSettled = true)
    (hcalls : ∀ c limit, e.request = .call c limit →
      fate.store c = fate'.store c ∧ start.Agrees start' c) : e = e' := by
  obtain ⟨r, a⟩ := e
  obtain ⟨r', a'⟩ := e'
  obtain rfl : r = r' := hr
  cases r with
  | publish | remember | compute => rfl
  | isCancelled =>
    obtain rfl : a = false := hs
    obtain rfl : a' = false := hs'
    rfl
  | pause length =>
    obtain rfl : a = false := hs
    obtain rfl : a' = false := hs'
    rfl
  | call c limit =>
    obtain ⟨hfate, hagrees⟩ := hcalls c limit rfl
    obtain ⟨hturnout, hgives⟩ := hs
    obtain ⟨hturnout', hgives'⟩ := hs'
    rw [answer_unique (hturnout.trans (hfate.trans hturnout'.symm)) hagrees hgives hgives']
  | clock | announce | wait | attempt => cases hsettled

/-- Histories of settled answers are concordant. -/
theorem concordant_of_settles {fate fate' : Fate} {start start' : World} {h h' : List Exchange}
    (hs : ∀ e ∈ h, fate.Settles start e ∧ e.request.isSettled = true)
    (hs' : ∀ e ∈ h', fate'.Settles start' e)
    (hcalls : ∀ e ∈ h, ∀ c limit, e.request = .call c limit →
      fate.store c = fate'.store c ∧ start.Agrees start' c) : Concordant h h' :=
  fun e he e' he' hr => (hs e he).1.unique (hs' e' he') hr (hs e he).2 (hcalls e he)

/-- What concerns a kind is settled beforehand. -/
theorem Request.Concerns.isSettled {kind : DataKind} {r : Request} (hr : r.Concerns kind) :
    r.isSettled = true := by
  cases r with
  | isCancelled | compute => rfl
  | call c limit =>
    cases c with
    | read | write | invalidate | commit => rfl
    | metadata | fetch | player | versions | exist => exact hr.elim
  | publish | clock | announce | remember | wait | attempt | pause => exact hr.elim

/-! ## What an epoch is told -/

section

variable {p : SyncPolicy} {trigger : Trigger} {t u : List Moment} {s : Situation} {epoch : Epoch}
  {start w : World} {worker : Worker}

/-- What is read while a kind is processed is the entry of its version before, and the kind is not
restored. -/
theorem asks_processKind_read {results : List Fetched} {r : KindReport} {h : List Exchange}
    {key : CacheKey} {limit : Duration}
    (hr : (processKind p results r).Asks h (.call (.read key) limit)) :
    r.restored = false ∧ ∃ target old, key = FetchTarget.key target old ∧ target.kind = r.kind ∧
      r.oldVersion = some old := by
  obtain hr | ⟨_, _, _, -, -, hr⟩ := asks_processKind hr
  · obtain ⟨before, f, after, _, _, _, heq, -, -, hr⟩ := asks_writeTargets hr
    have hmem : f ∈ results.filter fun f => f.target.kind = r.kind := by simp [heq]
    obtain ⟨payload, -, ⟨-, heq⟩ | ⟨_, -, hr⟩ | ⟨_, _, -, -, heq⟩⟩ := asks_writeTarget hr
    · cases heq
    · constructor
      · rw [← Bool.not_eq_true]
        intro hrestored
        simp [comparison, hrestored] at hr
      · obtain heq | ⟨old, hold, heq⟩ := asks_comparison hr
        · cases heq
        · cases heq
          exact ⟨f.target, old, rfl, by simpa using (List.mem_filter.1 hmem).2, hold⟩
    · cases heq
  · obtain ⟨-, ⟨-, heq⟩ | ⟨-, heq⟩ | ⟨_, -, hr⟩⟩ := asks_commitKind hr
    · cases heq
    · cases heq
    · obtain ⟨_, -, -, _, -, heq⟩ := asks_expirePrevious hr
      cases heq

/-- What the check looks up is the entry of a target. -/
theorem asks_checking_exist {h : List Exchange} {key : CacheKey} {limit : Duration}
    (hr : (checking p trigger).Asks h (.call (.exist key) limit)) :
    ∃ target v, key = FetchTarget.key target v := by
  simp only [checking, asks_bind, asks_request, ends_request] at hr
  obtain ⟨-, heq⟩ | ⟨_, _, now, rfl, -, ⟨-, heq⟩ | ⟨_, _, _, rfl, -, hr⟩⟩ := hr
  · cases heq
  · cases heq
  obtain hr | ⟨_, _, result, rfl, -, hr⟩ := hr
  · simp only [check, asks_bind] at hr
    obtain hr | ⟨_, _, ⟨n, result⟩, rfl, -, hr⟩ := hr
    · obtain ⟨heq | ⟨_, heq⟩, -⟩ := asks_withRetry hr <;> cases heq
    · cases result with
      | error => simp at hr
      | ok =>
        simp only [asks_bind, asks_bounded, asks_pure, and_false, exists_false, or_false] at hr
        cases hr.2
  · rcases result with f | ⟨m, stored⟩
    · cases f <;> simp at hr
    · simp only [asks_bind] at hr
      obtain hr | ⟨_, _, sels, rfl, -, hr⟩ := hr
      · obtain ⟨k, -, target, -, heq⟩ := asks_selectKinds hr
        cases heq
        exact ⟨target, _, rfl⟩
      · split at hr <;> simp at hr

/-- Entries are looked up by the epoch itself, and they are entries of targets. -/
theorem Run.asked_exist {m : Moment} {q : Request} {key : CacheKey}
    (run : Run p trigger (t ++ m :: u) s) (hm : m.Faces worker q)
    (hq : q.call? = some (.exist key)) :
    worker = .epoch ∧ ∃ target v, key = FetchTarget.key target v := by
  cases worker with
  | job n =>
    obtain ⟨job, hasks⟩ := run.asked_job hm
    obtain ⟨rfl | ⟨length, rfl⟩, -⟩ := asks_fetchOne hasks <;> cases hq
  | epoch =>
    refine ⟨rfl, ?_⟩
    cases run.asked_epoch hm with
    | checking asks =>
      cases q with
      | call c limit =>
        obtain rfl := Option.some.inj hq
        exact asks_checking_exist asks
      | attempt c limit =>
        obtain rfl := Option.some.inj hq
        exact (asks_checking asks).elim
      | wait c =>
        obtain rfl := Option.some.inj hq
        exact (asks_checking asks).elim
      | publish | isCancelled | clock | announce | remember | pause | compute => cases hq
    | writing writes asks => cases (asks_writing_request asks).isOfCheck_eq hq
    | concluding ends =>
      rw [call?_of_isOfConclusion ends] at hq
      cases hq

/-- **What is looked up is found as it was at the start**, unless it has expired. -/
theorem Run.exist_gives {key : CacheKey} {found : Bool} {e : Exchange}
    (run : Run p trigger t s) (follows : Follows start t w) (hd : start.cache.Distinct)
    (he : Moment.answered worker e ∈ t) (hb : e.Brings (.exist key) found)
    (hunexpired : Unexpired start w key) : start.Gives (.exist key) found := by
  obtain ⟨past, rest, rfl⟩ := List.append_of_mem he
  obtain ⟨w₁, follows₁, hanswers, hle, -⟩ := follows.split
  obtain ⟨-, target, v, rfl⟩ := run.asked_exist (.answered e.answer) hb.call?
  have hkeeps : start.Keeps w₁ (target.key v) :=
    follows₁.keeps hd fun worker' e' he' => run.not_touches_of_lookup hb.call? he' _
  have hfound : found = w₁.cache.contains w₁.now (target.key v) := hanswers (.exist _) found hb
  rw [World.Gives, hfound, MemoryCache.contains, MemoryCache.contains,
    hkeeps.live?_eq (Nat.le_refl _),
    MemoryCache.live?_eq_of_between hunexpired hkeeps.now_le hle]

/-- **What is read is what was cached at the start**, unless it has expired. -/
theorem Run.read_gives {key : CacheKey} {found : Option Json} {e : Exchange}
    (run : Run p trigger t (.ended epoch)) (follows : Follows start t w)
    (hd : start.cache.Distinct) (he : Moment.answered worker e ∈ t)
    (hb : e.Brings (.read key) found) (hunexpired : Unexpired start w key) :
    start.Gives (.read key) found := by
  have htracked : Tracked start t w := follows.tracked (u := []) (by simpa using run)
  obtain ⟨past, rest, rfl⟩ := List.append_of_mem he
  obtain ⟨w₁, follows₁, hanswers, hle, -⟩ := follows.split
  obtain ⟨rfl, ⟨limit, hlimit⟩, _, _, results, r, l, hp, hasks, -⟩ :=
    run.asked_kind (.answered e.answer) hb.call? rfl
  rw [hlimit] at hasks
  obtain ⟨hfresh, target, old, rfl, hkind, hold⟩ := asks_processKind_read hasks
  obtain ⟨s₁, run₁, -⟩ := run.split
  obtain ⟨m, stored, hselected, hwas⟩ := hp.selection run₁
  have htold := ((hselected.committed stored).2 rfl).append (u := .answered .epoch e :: rest)
  have hadvertised := ((hselected.advertised m).2 rfl).append (u := .answered .epoch e :: rest)
  obtain rfl := htracked.told stored htold
  have hothers : ∀ r' ∈ epoch.kinds, r'.kind = target.kind → r'.restored = false := by
    intro r' hr' hsame
    obtain ⟨m', stored', hmetadata, hversions, hnew, hwas'⟩ := run.reports_eq.2 r' hr'
    obtain rfl := (hmetadata m).1 hadvertised
    obtain rfl := (hversions _).1 htold
    have hkinds : r'.kind = r.kind := hsame.trans hkind
    rw [KindReport.restored, hnew, hwas', hkinds, ← hwas, ← hselected.version_eq]
    exact hfresh
  have hkeeps : start.Keeps w₁ (target.key old) :=
    run.keeps_until_read hb.call? follows₁ hd (by rw [hkind, ← hwas, hold]) hothers
  have hfound : found = w₁.cache.live? w₁.now (target.key old) := hanswers (.read _) found hb
  rw [World.Gives, hfound, hkeeps.live?_eq (Nat.le_refl _),
    MemoryCache.live?_eq_of_between hunexpired hkeeps.now_le hle]

variable {fate : Fate}

/-- **Every answer to the epoch is settled**, as long as nothing that it looks at expires. -/
theorem Fated.settles (hf : Fated p trigger fate start t epoch w) (hd : start.cache.Distinct)
    {e : Exchange} (he : e ∈ exchanges worker t)
    (hunexpired : ∀ c key, e.request.call? = some c → c.lookedAt? = some key →
      Unexpired start w key) : fate.Settles start e := by
  have hmem := mem_exchanges.1 he
  have hadmits : e.request.Admits false e.answer := by
    obtain ⟨past, rest, rfl⟩ := List.append_of_mem hmem
    have huncancelled := hf.uncancelled
    rw [wasCancelled_append, Bool.or_eq_false_iff] at huncancelled
    have hadmits := hf.run.admits
    rwa [huncancelled.1] at hadmits
  obtain ⟨r, a⟩ := e
  cases r with
  | publish | clock | announce | remember | wait | attempt | compute => trivial
  | isCancelled => exact hadmits
  | pause length =>
    have hcut : a ≠ true := fun hcut => Bool.false_ne_true (hadmits hcut)
    exact Bool.eq_false_iff.2 hcut
  | call c limit =>
    refine ⟨hf.governed.store _ _ _ _ hmem, ?_⟩
    rintro x rfl
    have hb : Exchange.Brings c x ⟨.call c limit, some (.ok x)⟩ := .call limit
    cases c with
    | versions =>
      have htracked : Tracked start t w := hf.follows.tracked (u := []) (by simpa using hf.run)
      exact htracked.told x ⟨_, _, hmem, hb⟩
    | read key => exact hf.run.read_gives hf.follows hd hmem hb (hunexpired _ key rfl rfl)
    | exist key => exact hf.run.exist_gives hf.follows hd hmem hb (hunexpired _ key rfl rfl)
    | metadata | fetch | player | commit | write | invalidate => trivial

end

end Engine

end ContentSync
