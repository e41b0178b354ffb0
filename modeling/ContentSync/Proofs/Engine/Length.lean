import ContentSync.Proofs.Engine.Account

/-!
# How long an epoch can last

An epoch looks up each target at most once, makes a limited number of attempts for each of them, and
writes and removes each of them at most once. So however its requests are answered, it comes to its
end.

* `Program.Within` — a program makes at most a number of requests;
* `within_checking`, `within_fetchOne`, `within_finishing` — how many requests the parts of an
  epoch make;
* `Situation.Lasts` — how many steps are left in a situation;
* `Situation.Lasts.step`, `Situation.Lasts.acc` — every step leaves fewer of them, so there are no
  endless steps;
* `Run.lasts`, `Run.length_le` — how many moments there can be in an epoch.
-/

set_option autoImplicit false

namespace ContentSync

/-- A request that is answered within a limit. -/
def Request.isLimited : Request → Bool
  | wait _ => false
  | _ => true

namespace Program

variable {α β : Type} {P Q : α → Prop} {m n : Nat}

/-- A program makes at most a number of requests, all of them limited, and something is known of what
it is done with. -/
inductive Within (Q : α → Prop) : Nat → Program α → Prop
  | done {n : Nat} {a : α} (ha : Q a) : Within Q n (.done a)
  | ask {n : Nat} {r : Request} {next : r.Answer → Program α} (limited : r.isLimited = true)
    (hnext : ∀ a, Within Q n (next a)) : Within Q (n + 1) (.ask r next)

theorem Within.mono {q : Program α} (hq : q.Within Q m) (hle : m ≤ n)
    (himp : ∀ a, Q a → P a) : q.Within P n := by
  induction hq generalizing n with
  | done ha => exact .done (himp _ ha)
  | ask limited _ ih =>
    cases n with
    | zero => omega
    | succ n => exact .ask limited fun a => ih a (by omega)

theorem Within.of_le {q : Program α} (hq : q.Within Q m) (hle : m ≤ n) : q.Within Q n :=
  hq.mono hle fun _ ha => ha

theorem within_pure {a : α} (ha : Q a) : (pure a : Program α).Within Q n := .done ha

theorem within_pure_true {a : α} : (pure a : Program α).Within (fun _ => True) n := .done trivial

theorem within_request {r : Request} (limited : r.isLimited = true) :
    (request r).Within (fun _ => True) 1 :=
  .ask limited fun _ => within_pure_true

/-- Programs one after another make no more requests than each of them. -/
theorem Within.bind {R : β → Prop} {q : Program α} {f : α → Program β} (hq : q.Within Q m)
    (hf : ∀ a, Q a → (f a).Within R n) : (q >>= f).Within R (m + n) := by
  induction hq with
  | done ha => exact (hf _ ha).of_le (Nat.le_add_left ..)
  | @ask m _ _ limited _ ih =>
    rw [Nat.add_right_comm]
    exact .ask limited ih

theorem Within.map {R : β → Prop} {q : Program α} {f : α → β} (hq : q.Within Q n)
    (hf : ∀ a, Q a → R (f a)) : (f <$> q).Within R n := by
  rw [map_eq_pure_bind]
  exact hq.bind fun a ha => within_pure (n := 0) (hf a ha)

end Program

namespace Engine

open Program

variable {p : SyncPolicy} {trigger : Trigger}

/-! ## Checking and fetching -/

/-- How many targets there are. -/
def breadth (p : SyncPolicy) : Nat := (DataKind.all.flatMap p.targets).length

/-- How many attempts and pauses a call with retries can take. -/
def retrySpan (p : SyncPolicy) : Nat := 2 * (p.retry.maxAttempts - 1) + 1

theorem within_bounded {what : String} {late : String → Failure} {c : Call} :
    @Within (Except Failure c.Answer) (fun _ => True) 1 (bounded p what late c) := by
  refine .ask rfl fun a => ?_
  cases a <;> exact within_pure_true

theorem within_retrying {what : String} {c : Call} {left attempt : Nat} :
    (retrying p what c left attempt).Within (fun _ => True) (2 * left + 1) := by
  induction left generalizing attempt with
  | zero => exact .ask rfl fun _ => within_pure_true
  | succ left ih =>
    refine Within.of_le (m := 1 + (1 + (2 * left + 1))) ?_ (by omega)
    refine (within_request rfl).bind fun ending _ => ?_
    cases settle p what ending with
    | ok x => exact within_pure_true
    | error f =>
      dsimp only
      split
      · -- Another attempt follows the pause, unless this is cut short.
        refine (within_request rfl).bind fun cut _ => ?_
        split
        · exact within_pure_true
        · exact ih
      · exact within_pure_true

theorem within_withRetry {what : String} {c : Call} :
    (withRetry p what c).Within (fun _ => True) (retrySpan p) := within_retrying

theorem within_fetchOne {job : Job} :
    (fetchOne p job).Within (fun _ => True) (retrySpan p) :=
  within_withRetry.bind (n := 0) fun _ _ => within_pure_true

theorem within_check : (check p).Within (fun _ => True) (retrySpan p + 1) := by
  refine within_withRetry.bind fun a _ => ?_
  obtain ⟨_, _ | m⟩ := a
  · exact within_pure_true
  · exact within_bounded.bind (n := 0) fun _ _ => within_pure_true

/-- Every target is looked up once. -/
theorem within_missing {v : Version} {ts : List FetchTarget} :
    (missing p v ts).Within (fun found => found.length ≤ ts.length) ts.length := by
  induction ts with
  | nil => exact within_pure (Nat.le_refl _)
  | cons t ts ih =>
    rw [List.length_cons, Nat.add_comm]
    refine within_bounded.bind fun found _ => ih.bind (n := 0) fun others hothers => ?_
    apply within_pure
    rcases found with _ | _ | _ <;> simp <;> omega

theorem within_targetsToFetch {k : DataKind} {committed : Option Version} {advertised : Version} :
    (targetsToFetch p k committed advertised).Within
      (fun found => found.length ≤ (p.targets k).length) (p.targets k).length := by
  unfold targetsToFetch
  split
  · exact within_missing
  · exact within_pure (Nat.le_refl _)

theorem within_selectKinds {m : Metadata} {s : StoredVersions} {ks : List DataKind} :
    (selectKinds p m s ks).Within
      (fun sels => sels.length ≤ ks.length ∧
        (sels.flatMap Selection.jobs).length ≤ (ks.flatMap p.targets).length)
      (ks.flatMap p.targets).length := by
  induction ks with
  | nil => exact within_pure ⟨Nat.le_refl _, Nat.le_refl _⟩
  | cons k ks ih =>
    rw [List.flatMap_cons, List.length_append]
    refine within_targetsToFetch.bind fun targets ht =>
      ih.bind (n := 0) fun others hothers => within_pure ?_
    obtain ⟨hlength, hjobs⟩ := hothers
    split
    · exact ⟨by simp; omega, by omega⟩
    · simp only [List.length_cons, List.flatMap_cons, List.length_append, Selection.jobs,
        List.length_map]
      exact ⟨by omega, Nat.add_le_add ht hjobs⟩

/-- There is no more to fetch than there are targets. -/
inductive Checked.Feasible (p : SyncPolicy) : Checked → Prop
  | stopped (epoch : Epoch) : Feasible p (.stopped epoch)
  | ready {epoch : Epoch} {jobs : List Job} (kinds_le : epoch.kinds.length ≤ 2)
    (jobs_le : jobs.length ≤ breadth p) : Feasible p (.ready epoch jobs)

theorem within_checking :
    (checking p trigger).Within (Checked.Feasible p) (retrySpan p + breadth p + 3) := by
  have hall : (checking p trigger).Within (Checked.Feasible p)
      (1 + (1 + (retrySpan p + 1 + breadth p))) := by
    refine (within_request rfl).bind fun now _ => (within_request rfl).bind fun _ _ =>
      within_check.bind fun result _ => ?_
    rcases result with f | ⟨m, s⟩
    · cases f <;> exact within_pure (.stopped _)
    refine Within.of_le (m := breadth p + 0) (within_selectKinds.bind fun sels hsels => ?_)
      (Nat.le_refl _)
    obtain ⟨hlength, hjobs⟩ := hsels
    split
    · exact within_pure (.stopped _)
    · exact within_pure (.ready (by simpa [DataKind.all] using hlength) hjobs)
  exact hall.of_le (by omega)

/-! ## Writing and concluding -/

theorem within_comparison {r : KindReport} {t : FetchTarget} {new : Json} :
    (comparison p r t new).Within (fun _ => True) 2 := by
  unfold comparison
  split
  · exact within_pure_true
  refine Within.map (Q := fun _ => True) ?_ fun _ _ => trivial
  have hcompute : ∀ {old}, (computeChanges t old new).Within (fun _ => True) 1 :=
    (within_request rfl).bind (n := 0) fun _ _ => within_pure_true
  unfold compareTarget
  split
  · exact hcompute.of_le (by omega)
  · refine within_bounded.bind (n := 1) fun result _ => ?_
    cases result with
    | ok baseline => exact hcompute
    | error f => exact within_pure_true

theorem within_writeTarget {r : KindReport} {f : Fetched} :
    (writeTarget p r f).Within (fun _ => True) 4 := by
  unfold writeTarget
  split
  · exact within_pure_true
  refine (within_request rfl).bind (n := 3) fun cancelled _ => ?_
  split
  · exact within_pure_true
  refine within_comparison.bind (n := 1) fun _ _ =>
    within_bounded.bind (n := 0) fun written _ => ?_
  cases written <;> exact within_pure_true

theorem within_writeTargets {r : KindReport} (fs : List Fetched) :
    (writeTargets p r fs).Within (fun reports => reports.length = fs.length) (4 * fs.length) := by
  induction fs with
  | nil => exact within_pure rfl
  | cons f fs ih =>
    refine Within.of_le (m := 4 + (4 * fs.length + 0)) ?_ (by rw [List.length_cons]; omega)
    refine within_writeTarget.bind fun report _ => ih.bind fun others hothers => within_pure ?_
    rw [List.length_cons, List.length_cons, hothers]

theorem within_expire {v : Version} (ts : List FetchTarget) :
    (expire p v ts).Within (fun _ => True) ts.length := by
  induction ts with
  | nil => exact within_pure_true
  | cons t ts ih =>
    rw [List.length_cons, Nat.add_comm]
    exact within_bounded.bind fun _ _ => ih

theorem within_expirePrevious {r : KindReport} :
    (expirePrevious p r).Within (fun _ => True) r.targets.length := by
  unfold expirePrevious
  split
  · exact within_pure_true
  split
  · exact within_pure_true
  · simpa using within_expire (r.targets.map (·.target))

theorem within_commitKind {r : KindReport} :
    (commitKind p r).Within (fun _ => True) (r.targets.length + 2) := by
  unfold commitKind
  split
  · exact within_pure_true
  refine Within.of_le (m := 1 + (1 + r.targets.length)) ?_ (by omega)
  refine (within_request (r := .isCancelled) rfl).bind fun cancelled _ => ?_
  split
  · exact within_pure_true
  refine within_bounded.bind fun result _ => ?_
  cases result with
  | error f => exact within_pure_true
  | ok _ => exact within_expirePrevious.bind (n := 0) fun _ _ => within_pure_true

theorem within_processKind {fetched : List Fetched} {r : KindReport} :
    (processKind p fetched r).Within (fun _ => True) (5 * fetched.length + 2) := by
  have hle := List.length_filter_le (fun f => decide (f.target.kind = r.kind)) fetched
  have hall := within_writeTargets (p := p) (r := r)
    (fetched.filter fun f => f.target.kind = r.kind)
  refine (hall.bind (n := fetched.length + 2) fun reports hreports => ?_).of_le (by omega)
  exact within_commitKind.of_le (by simp only; omega)

theorem within_processKinds {fetched : List Fetched} {rs : List KindReport} :
    (processKinds p fetched rs).Within (fun _ => True) (rs.length * (5 * fetched.length + 2)) := by
  induction rs with
  | nil => exact within_pure_true
  | cons r rs ih =>
    rw [List.length_cons, Nat.add_mul, Nat.one_mul, Nat.add_comm]
    exact within_processKind.bind fun _ _ => ih.bind (n := 0) fun _ _ => within_pure_true

theorem within_concluding {e : Epoch} : (concluding e).Within (fun _ => True) 6 := by
  have hannouncing : ∀ finished : Epoch, (announcing finished).Within (fun _ => True) 4 :=
    fun finished => .ask rfl fun _ => .ask rfl fun _ => .ask rfl fun _ => .ask rfl fun _ =>
      .done trivial
  refine (within_request rfl).bind (n := 5) fun now _ => ?_
  dsimp only
  split
  · exact (within_request rfl).bind fun _ _ => hannouncing _
  · exact (hannouncing _).of_le (by omega)

/-- How many requests writing and concluding can make. -/
def finishingSpan (p : SyncPolicy) : Nat := 2 * (5 * breadth p + 2) + 8

theorem within_finishing {e : Epoch} {fetched : List Fetched} (hkinds : e.kinds.length ≤ 2)
    (hfetched : fetched.length ≤ breadth p) :
    (writing p e fetched >>= concluding).Within (fun _ => True) (finishingSpan p) := by
  have hwriting : (writing p e fetched).Within (fun _ => True)
      (1 + (1 + e.kinds.length * (5 * fetched.length + 2))) :=
    (within_request rfl).bind fun _ _ => (within_request rfl).bind fun _ _ =>
      within_processKinds.bind (n := 0) fun _ _ => within_pure_true
  have hle : e.kinds.length * (5 * fetched.length + 2) ≤ 2 * (5 * breadth p + 2) :=
    Nat.mul_le_mul hkinds (by omega)
  exact (hwriting.bind fun _ _ => within_concluding).of_le (by unfold finishingSpan; omega)

/-! ## Situations -/

/-- A thread is done after at most a number of steps. Each request takes two of them. -/
inductive Thread.Within {α : Type} (Q : α → Prop) : Nat → Thread α → Prop
  | running {n : Nat} {q : Program α} (hq : q.Within Q n) : Within Q (2 * n) (.running q)
  | waiting {n : Nat} {r : Request} {next : r.Answer → Program α} (limited : r.isLimited = true)
    (hnext : ∀ a, (next a).Within Q n) : Within Q (2 * n + 1) (.waiting r next)

theorem Thread.Within.step {α : Type} {Q : α → Prop} {n : Nat} {w : Worker} {cancelled : Bool}
    {th th' : Thread α} {m : Moment} (hth : th.Within Q n) (hs : th.Step w cancelled m th') :
    ∃ k < n, th'.Within Q k := by
  cases hs with
  | ask r next =>
    cases hth with
    | running hq =>
      cases hq with
      | ask limited hnext => exact ⟨_, by omega, .waiting limited hnext⟩
  | answer r next a ha =>
    cases hth with
    | waiting limited hnext => exact ⟨_, by omega, .running (hnext a)⟩

theorem Thread.Within.of_done {α : Type} {Q : α → Prop} {n : Nat} {a : α}
    (hth : (Thread.running (.done a)).Within Q n) : Q a := by
  cases hth with
  | running hq =>
    cases hq with
    | done ha => exact ha

/-- How many steps the fetch of a target can take, with its start and its end. -/
def fetchSpan (p : SyncPolicy) : Nat := 2 * retrySpan p + 2

/-- The jobs under way take at most a number of steps together, if each takes at most what `P` says.
The end of each is one more. -/
inductive SlotsWithin {β : Type} (P : Nat → β → Prop) : Nat → List (Nat × β) → Prop
  | nil : SlotsWithin P 0 []
  | cons {n k number : Nat} {x : β} {slots : List (Nat × β)} (head : P n x)
    (tail : SlotsWithin P k slots) : SlotsWithin P (n + 1 + k) ((number, x) :: slots)

/-- How many steps are left at most before an epoch is over. -/
inductive Situation.Lasts (p : SyncPolicy) : Nat → Situation → Prop
  | checking {n : Nat} {th : Thread Checked} (thread : th.Within (Checked.Feasible p) n) :
    Lasts p (n + (breadth p * fetchSpan p + (2 * finishingSpan p + 2))) (.checking th)
  | fetching {n : Nat} {epoch : Epoch} {f : Fetching} {slots : List (Nat × Thread Fetched)}
    (kinds_le : epoch.kinds.length ≤ 2) (jobs_le : f.started + f.waiting.length ≤ breadth p)
    (within : SlotsWithin (Thread.Within fun _ => True) n slots) :
    Lasts p (f.waiting.length * fetchSpan p + (n + (2 * finishingSpan p + 1)))
      (.fetching epoch f slots)
  | writing {n : Nat} {th : Thread Epoch} (thread : th.Within (fun _ => True) n) :
    Lasts p n (.writing th)

theorem lasts_start : (Situation.start p trigger).Lasts p
    (2 * (retrySpan p + breadth p + 3) + (breadth p * fetchSpan p + (2 * finishingSpan p + 2))) :=
  .checking (.running within_checking)

/-- What one job takes, and what the others do. -/
theorem SlotsWithin.split {β : Type} {P : Nat → β → Prop} {n number : Nat} {x : β}
    {before after : List (Nat × β)} (hw : SlotsWithin P n (before ++ (number, x) :: after)) :
    ∃ k m, n = k + 1 + m ∧ P k x ∧ SlotsWithin P m (before ++ after) ∧
      ∀ k' x', P k' x' → SlotsWithin P (k' + 1 + m) (before ++ (number, x') :: after) := by
  induction before generalizing n with
  | nil =>
    cases hw with
    | cons head tail => exact ⟨_, _, rfl, head, tail, fun _ _ hx => .cons hx tail⟩
  | cons slot before ih =>
    obtain ⟨i, first⟩ := slot
    cases hw with
    | @cons l _ _ _ _ head tail =>
      obtain ⟨k, m, rfl, hx, hothers, hreplace⟩ := ih tail
      refine ⟨k, l + 1 + m, by omega, hx, .cons head hothers, fun k' x' hx' => ?_⟩
      rw [Nat.add_left_comm]
      exact .cons head (hreplace k' x' hx')

theorem SlotsWithin.append {β : Type} {P : Nat → β → Prop} {n k number : Nat} {x : β}
    {slots : List (Nat × β)} (hw : SlotsWithin P n slots) (hx : P k x) :
    SlotsWithin P (n + (k + 1)) (slots ++ [(number, x)]) := by
  induction hw with
  | nil =>
    have hsingle : SlotsWithin P _ [(number, x)] := .cons hx .nil
    simpa using hsingle
  | cons head _ ih =>
    rw [Nat.add_assoc]
    exact .cons head ih

/-- A job that is started no longer waits to be. -/
theorem Fetching.room_of_next? {f f' : Fetching} {number : Nat} {job : Job}
    (hnext : f.next? = some (number, job, f')) {bound : Nat}
    (hle : f.started + f.waiting.length ≤ bound) :
    f'.started + f'.waiting.length ≤ bound ∧ f.waiting.length = f'.waiting.length + 1 := by
  obtain ⟨rest, hw, -, rfl⟩ := Fetching.next?_eq_some hnext
  rw [hw, List.length_cons] at hle ⊢
  refine ⟨?_, rfl⟩
  simp only [Fetching.started, List.length_append, List.length_singleton] at hle ⊢
  omega

/-- **Every step leaves fewer steps.** -/
theorem Situation.Lasts.step {n : Nat} {s s' : Situation} {cancelled : Bool} {m : Option Moment}
    (hl : s.Lasts p n) (hs : s.Step p cancelled m s') : ∃ k < n, s'.Lasts p k := by
  cases hs with
  | check hth =>
    cases hl with
    | checking thread =>
      obtain ⟨k, hk, hw⟩ := thread.step hth
      exact ⟨_, by omega, .checking hw⟩
  | stop epoch =>
    cases hl with
    | checking thread =>
      exact ⟨_, by unfold finishingSpan; omega, .writing (.running within_concluding)⟩
  | select epoch jobs hf =>
    cases hl with
    | checking thread =>
      subst hf
      cases thread.of_done with
      | ready kinds_le jobs_le =>
        refine ⟨_, ?_, .fetching kinds_le ?_ .nil⟩
        · have := Nat.mul_le_mul_right (fetchSpan p) jobs_le
          simp only [Fetching.create]
          omega
        · simpa [Fetching.create, Fetching.started] using jobs_le
  | @launch epoch f g slots number job hf =>
    cases hl with
    | fetching kinds_le jobs_le within =>
      obtain ⟨jobs_le', hlength⟩ := Fetching.room_of_next? hf jobs_le
      refine ⟨_, ?_, .fetching kinds_le jobs_le' (within.append (.running within_fetchOne))⟩
      rw [hlength, fetchSpan, Nat.add_mul]
      omega
  | fetch hth =>
    cases hl with
    | fetching kinds_le jobs_le within =>
      obtain ⟨l, m, rfl, hslot, -, hreplace⟩ := within.split
      obtain ⟨k, hk, hw⟩ := hslot.step hth
      exact ⟨_, by omega, .fetching kinds_le jobs_le (hreplace k _ hw)⟩
  | land result =>
    cases hl with
    | fetching kinds_le jobs_le within =>
      obtain ⟨l, m, rfl, -, hothers, -⟩ := within.split
      refine ⟨_, ?_, .fetching kinds_le ?_ hothers⟩
      · rw [Fetching.waiting_finish]
        omega
      · rw [Fetching.waiting_finish, Fetching.started_finish]
        exact jobs_le
  | collect hf =>
    cases hl with
    | fetching kinds_le jobs_le within =>
      have hfetched := Nat.le_trans (Nat.le_add_right ..) (Nat.le_trans (Nat.le_add_right ..) jobs_le)
      exact ⟨_, by omega, .writing (.running (within_finishing kinds_le hfetched))⟩
  | write hth =>
    cases hl with
    | writing thread =>
      obtain ⟨k, hk, hw⟩ := thread.step hth
      exact ⟨k, hk, .writing hw⟩

/-- A step leads from a situation to a later one. -/
def Situation.Later (p : SyncPolicy) (later earlier : Situation) : Prop :=
  ∃ cancelled m, earlier.Step p cancelled m later

/-- There are no endless steps, not even without any moments. -/
theorem Situation.Lasts.acc {n : Nat} {s : Situation} (hl : s.Lasts p n) :
    Acc (Situation.Later p) s := by
  induction n using Nat.strongRecOn generalizing s with
  | ind n ih =>
    constructor
    rintro s' ⟨cancelled, m, hs⟩
    obtain ⟨k, hk, hl'⟩ := hl.step hs
    exact ih k hk hl'

/-- How many moments there can be in an epoch. -/
def longest (p : SyncPolicy) : Nat :=
  2 * (retrySpan p + breadth p + 3) + (breadth p * fetchSpan p + (2 * finishingSpan p + 2)) + 1

/-- What has happened in an epoch and what is left of it. It can still be cancelled once. -/
theorem Run.lasts {t : List Moment} {s : Situation} (run : Run p trigger t s) :
    ∃ n, s.Lasts p n ∧ t.length + n + (!wasCancelled t).toNat ≤ longest p := by
  induction run with
  | start => exact ⟨_, lasts_start, by simp [wasCancelled, longest]⟩
  | startCancelled => exact ⟨_, lasts_start, by simp [wasCancelled, longest]; omega⟩
  | @step t s s' m run hs ih =>
    obtain ⟨n, hl, hle⟩ := ih
    obtain ⟨k, hk, hl'⟩ := hl.step hs
    refine ⟨k, hl', ?_⟩
    have hm : m.toList.length ≤ 1 := by cases m <;> simp
    have hc : (!wasCancelled (t ++ m.toList)).toNat ≤ (!wasCancelled t).toNat := by
      rw [wasCancelled_append]
      cases wasCancelled t <;> simp [Bool.toNat_le]
    rw [List.length_append]
    omega
  | @cancel t s run hrest hc ih =>
    obtain ⟨n, hl, hle⟩ := ih
    refine ⟨n, hl, ?_⟩
    simp only [hc, Bool.not_false, Bool.toNat_true] at hle
    simp [wasCancelled]
    omega

/-- **There is a limit to how long an epoch can last.** -/
theorem Run.length_le {t : List Moment} {s : Situation} (run : Run p trigger t s) :
    t.length ≤ longest p := by
  obtain ⟨n, -, hle⟩ := run.lasts
  omega

end Engine

end ContentSync
