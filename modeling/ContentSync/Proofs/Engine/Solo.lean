import ContentSync.Proofs.Engine.Account
import ContentSync.Proofs.Engine.Calls

/-!
# Playing an epoch

When it is settled beforehand how every request is answered, and at which request the epoch is
cancelled, an epoch can be played from its start to its end, its jobs one after another.

* `Conduct` — how requests are answered;
* `drive`, `fetchAll`, `play` — play a program, the jobs of an epoch, and a whole epoch;
* `smooth`, `slow`, `holding` — epochs in which nothing goes wrong, some calls take too long, and entries
  are cached;
* `play_run` — what is played is a run, which comes to the end of the epoch;
* `play_conforms` / `eq_of_conforms` — when nothing is cancelled, every answer in it is the one that was
  settled, and every call brings what it should.
-/

set_option autoImplicit false

namespace ContentSync

/-- The policy that fetches all game data at once. -/
def SyncPolicy.fullOnly : SyncPolicy := { SyncPolicy.default with segmentPolicy := .fullOnly }

namespace Engine

/-- How requests are answered, before a cancellation and after it. -/
structure Conduct where
  answer : Bool → (r : Request) → r.Answer
  admits : ∀ (cancelled : Bool) (r : Request), r.Admits cancelled (answer cancelled r)
  /-- The epoch is cancelled while it waits for the answer to such a request. -/
  cancels : Request → Bool

/-- What has happened in an epoch, whether it has been cancelled, and what has come of it. -/
structure Played (α : Type) where
  history : List Moment
  cancelled : Bool
  result : α

namespace Conduct

variable (o : Conduct)

/-- Whether an epoch is cancelled once it waits for an answer. -/
def cancelledAt (cancelled : Bool) (r : Request) : Bool :=
  cancelled || (r.isAwaited && o.cancels r)

/-- Plays a program. -/
def drive {α : Type} (w : Worker) (cancelled : Bool) : Program α → Played α
  | .done a => ⟨[], cancelled, a⟩
  | .ask r next =>
    let now := o.cancelledAt cancelled r
    let rest := drive w now (next (o.answer now r))
    let cut := if now && !cancelled then [.cancelled] else []
    { rest with history := .asked w r :: cut ++ .answered w ⟨r, o.answer now r⟩ :: rest.history }

/-- Plays the jobs of an epoch, as many as there may be. -/
def fetchAll (p : SyncPolicy) : Nat → Bool → Fetching → Played Fetching
  | 0, cancelled, f => ⟨[], cancelled, f⟩
  | n + 1, cancelled, f =>
    match f.next? with
    | none => ⟨[], cancelled, f⟩
    | some (number, job, g) =>
      let fetched := o.drive (.job number) cancelled (fetchOne p job)
      let f := g.finish number fetched.result
      let rest := fetchAll p n fetched.cancelled f
      { rest with history := fetched.history ++ .progressed f.phase :: rest.history }

/-- Plays an epoch. -/
def play (p : SyncPolicy) (trigger : Trigger) (cancelled : Bool) : Played Epoch :=
  let before : List Moment := if cancelled then [.cancelled] else []
  let checked := o.drive .epoch cancelled (checking p trigger)
  match checked.result with
  | .stopped epoch =>
    let concluded := o.drive .epoch checked.cancelled (concluding epoch)
    ⟨before ++ checked.history ++ concluded.history, concluded.cancelled, concluded.result⟩
  | .ready epoch jobs =>
    let f := Fetching.create p.maxConcurrentFetches jobs
    let fetched := o.fetchAll p jobs.length checked.cancelled f
    let written := o.drive .epoch fetched.cancelled
      (writing p epoch fetched.result.taken >>= concluding)
    ⟨before ++ checked.history ++ .selected jobs f.phase :: (fetched.history ++ written.history),
      written.cancelled, written.result⟩

/-- Every call brings what is asked for, and the cache has every entry. -/
def ideal (m : Metadata) (stored : StoredVersions) (payload : Json) : (c : Call) → c.Answer
  | .metadata => m
  | .fetch _ _ _ | .player _ => payload
  | .versions => stored
  | .commit _ _ | .write _ _ _ | .invalidate _ => ()
  | .read _ => none
  | .exist _ => true

/-- Nothing goes wrong, except that the epoch may be cancelled. -/
def smooth (m : Metadata) (stored : StoredVersions) (payload : Json)
    (cancels : Request → Bool) : Conduct where
  answer
    | cancelled, .isCancelled => cancelled
    | _, .publish _ | _, .remember _ | _, .compute => ()
    | _, .clock => ⟨0, 0⟩
    | _, .announce _ => true
    | _, .wait c => .ok (ideal m stored payload c)
    | _, .call c _ => some (.ok (ideal m stored payload c))
    | false, .attempt c _ => .answered (.ok (ideal m stored payload c))
    | true, .attempt _ _ => .cancelled
    | cancelled, .pause _ => cancelled
  admits cancelled r := by
    cases r <;> cases cancelled <;> first | rfl | trivial | exact fun h => h
  cancels := cancels

/-- A smooth epoch for which there is new game data, while the localization is cached. -/
def newGameData (cancels : Request → Bool) : Conduct :=
  .smooth ⟨⟨"2"⟩, ⟨"1"⟩⟩ ⟨none, some ⟨"1"⟩⟩ (.object []) cancels

/-- Some bounded calls take too long. -/
def slow (o : Conduct) (late : Call → Bool) : Conduct where
  answer
    | cancelled, .call c limit => if late c then none else o.answer cancelled (.call c limit)
    | cancelled, r => o.answer cancelled r
  admits cancelled r := by
    cases r with
    | call => trivial
    | publish | isCancelled | clock | announce | remember | wait | attempt | pause | compute =>
      exact o.admits cancelled _
  cancels := o.cancels

/-- Reads of the cache bring what it holds. -/
def holding (o : Conduct) (held : CacheKey → Option Json) : Conduct where
  answer
    | _, .wait (.read key) => .ok (held key)
    | _, .call (.read key) _ => some (.ok (held key))
    | false, .attempt (.read key) _ => .answered (.ok (held key))
    | true, .attempt (.read _) _ => .cancelled
    | cancelled, r => o.answer cancelled r
  admits cancelled r := by
    cases r with
    | wait c | call c => cases c <;> trivial
    | attempt c =>
      cases c with
      | read => cases cancelled <;> first | rfl | trivial
      | metadata | fetch | player | versions | commit | exist | write | invalidate =>
        exact o.admits cancelled _
    | publish | isCancelled | clock | announce | remember | pause | compute => exact o.admits cancelled _
  cancels := o.cancels

/-! ## What is played is a run -/

variable {o} {p : SyncPolicy} {trigger : Trigger} {t : List Moment}

/-- A program is played wherever its steps are steps of the situation. -/
theorem drive_run {α : Type} {w : Worker} {cancelled : Bool} {q : Program α}
    (place : Thread α → Situation)
    (hstep : ∀ {th th' m c}, th.Step w c m th' → (place th).Step p c (some m) (place th'))
    (hrest : ∀ {th}, th.AtRest → (place th).AtRest)
    (run : Run p trigger t (place (.running q))) (hc : wasCancelled t = cancelled) :
    Run p trigger (t ++ (o.drive w cancelled q).history)
        (place (.running (.done (o.drive w cancelled q).result))) ∧
      wasCancelled (t ++ (o.drive w cancelled q).history) = (o.drive w cancelled q).cancelled := by
  induction q generalizing t cancelled with
  | done a => exact ⟨by simpa [drive] using run, by simpa [drive] using hc⟩
  | ask r next ih =>
    have hasked := run.step (hstep (.ask r next))
    -- The request may be the one during which the epoch is cancelled.
    have hcut : ∃ u, u = (if o.cancelledAt cancelled r && !cancelled then [Moment.cancelled] else [])
        ∧ Run p trigger (t ++ [.asked w r] ++ u) (place (.waiting r next)) ∧
        wasCancelled (t ++ [.asked w r] ++ u) = o.cancelledAt cancelled r := by
      refine ⟨_, rfl, ?_⟩
      by_cases hnow : (o.cancelledAt cancelled r && !cancelled) = true
      · simp only [hnow, if_true]
        obtain ⟨hat, hnot⟩ := Bool.and_eq_true_iff.1 hnow
        obtain rfl : cancelled = false := by simpa using hnot
        have hawaited : r.isAwaited = true := by
          simp only [cancelledAt, Bool.false_or, Bool.and_eq_true] at hat
          exact hat.1
        refine ⟨hasked.cancel (hrest hawaited) ?_, ?_⟩
        · simpa [wasCancelled] using hc
        · simp [wasCancelled, hat]
      · simp only [hnow, Bool.false_eq_true, if_false, List.append_nil]
        refine ⟨hasked, ?_⟩
        rw [wasCancelled_append, hc]
        cases cancelled <;> simp_all [cancelledAt, wasCancelled]
    obtain ⟨u, hu, hwaiting, hnow⟩ := hcut
    have hanswered := hwaiting.step (hstep (.answer r next (o.answer (o.cancelledAt cancelled r) r)
      (by rw [hnow]; exact o.admits _ r)))
    have hc' : wasCancelled (t ++ [.asked w r] ++ u ++
        (some (Moment.answered w ⟨r, o.answer (o.cancelledAt cancelled r) r⟩)).toList) =
        o.cancelledAt cancelled r := by
      rw [wasCancelled_append, hnow]
      simp [wasCancelled]
    obtain ⟨hrun, hcancelled⟩ := ih _ hanswered hc'
    simp only [drive, ← hu]
    simpa using And.intro hrun hcancelled

/-- A single job that ends leaves the buffer empty. -/
theorem next?_of_held_nil {f : Fetching} (hheld : f.held = []) (hlimit : 1 ≤ f.limit) {job : Job}
    {rest : List Job} (hw : f.waiting = job :: rest) :
    ∃ g, f.next? = some (f.started, job, g) ∧ ∀ result,
      (g.finish f.started result).held = [] ∧ (g.finish f.started result).waiting = rest ∧
        1 ≤ (g.finish f.started result).limit := by
  refine ⟨{ f with waiting := rest, held := f.held ++ [⟨f.started, none⟩] }, ?_, fun result => ?_⟩
  · have hfree : f.held.length < f.limit := by
      rw [hheld]
      exact hlimit
    simp [Fetching.next?, hw, hfree]
  · simp [Fetching.finish, hheld, Fetching.endedFront, hlimit]

theorem fetchAll_run {epoch : Epoch} {n : Nat} {cancelled : Bool} {f : Fetching}
    (hheld : f.held = []) (hlimit : 1 ≤ f.limit) (hn : f.waiting.length = n)
    (run : Run p trigger t (.fetching epoch f [])) (hc : wasCancelled t = cancelled) :
    Run p trigger (t ++ (o.fetchAll p n cancelled f).history)
        (.fetching epoch (o.fetchAll p n cancelled f).result []) ∧
      wasCancelled (t ++ (o.fetchAll p n cancelled f).history)
        = (o.fetchAll p n cancelled f).cancelled ∧
      (o.fetchAll p n cancelled f).result.isOver = true := by
  induction n generalizing t cancelled f with
  | zero =>
    refine ⟨by simpa [fetchAll] using run, by simpa [fetchAll] using hc, ?_⟩
    simp [fetchAll, Fetching.isOver, hheld, List.eq_nil_of_length_eq_zero hn]
  | succ n ih =>
    obtain ⟨job, rest, hw⟩ := List.exists_cons_of_length_eq_add_one hn
    obtain ⟨g, hnext, hfinish⟩ := next?_of_held_nil hheld hlimit hw
    have hlaunched := run.step (.launch hnext)
    simp only [Option.toList_none, List.append_nil, List.nil_append] at hlaunched
    obtain ⟨hfetched, hcancelled⟩ := drive_run (o := o) (q := fetchOne p job)
      (fun th => .fetching epoch g ([] ++ (f.started, th) :: []))
      (fun hth => .fetch hth) (fun _ => trivial) hlaunched hc
    have hlanded := hfetched.step (.land _)
    obtain ⟨hheld', hwaiting', hlimit'⟩ :=
      hfinish (o.drive (.job f.started) cancelled (fetchOne p job)).result
    obtain ⟨hrun, hc', hover⟩ := ih hheld' hlimit' (by rw [hwaiting']; simpa [hw] using hn)
      hlanded (by simpa [wasCancelled] using hcancelled)
    simp only [fetchAll, hnext]
    refine ⟨by simpa using hrun, ?_, hover⟩
    simpa using hc'

/-- **What is played is a run**, and it reaches the end of the epoch. -/
theorem play_run (cancelled : Bool) :
    Run p trigger (o.play p trigger cancelled).history
      (.ended (o.play p trigger cancelled).result) := by
  have hstart : ∃ before, before = (if cancelled then [Moment.cancelled] else []) ∧
      Run p trigger before (.start p trigger) ∧ wasCancelled before = cancelled := by
    refine ⟨_, rfl, ?_⟩
    cases cancelled with
    | true => exact ⟨.startCancelled, rfl⟩
    | false => exact ⟨.start, rfl⟩
  obtain ⟨before, hbefore, run, hc⟩ := hstart
  obtain ⟨hchecked, hc⟩ := drive_run (o := o) .checking
    (fun hth => .check hth) (fun hth => hth) run hc
  unfold play
  rw [← hbefore]
  dsimp only
  split
  · rename_i epoch heq
    rw [heq] at hchecked
    have hstopped := hchecked.step (.stop epoch)
    obtain ⟨hover, -⟩ := drive_run (o := o) .writing
      (fun hth => .write hth) (fun hth => hth) hstopped (by simpa using hc)
    simpa [Situation.ended] using hover
  · rename_i epoch jobs heq
    rw [heq] at hchecked
    have hselected := hchecked.step (.select epoch jobs rfl)
    obtain ⟨hfetched, hc, hisOver⟩ := fetchAll_run (o := o) (n := jobs.length) rfl
      (Nat.le_max_right ..) rfl hselected (by simpa [wasCancelled] using hc)
    have hcollected := hfetched.step (.collect hisOver)
    obtain ⟨hover, -⟩ := drive_run (o := o) .writing
      (fun hth => .write hth) (fun hth => hth) hcollected (by simpa using hc)
    simpa [Situation.ended] using hover

/-! ## Epochs that are never cancelled -/

/-- Nobody has been told of a cancellation, and every answer is the one that was settled. -/
def Conforms (o : Conduct) : Moment → Prop
  | .cancelled => False
  | .answered _ e => e.answer = o.answer false e.request
  | .asked _ _ | .selected _ _ | .progressed _ => True

theorem drive_conforms (hnever : ∀ r, o.cancels r = false) {α : Type} (w : Worker) (q : Program α) :
    (o.drive w false q).cancelled = false ∧ ∀ m ∈ (o.drive w false q).history, o.Conforms m := by
  induction q with
  | done a => exact ⟨rfl, fun m hm => absurd hm List.not_mem_nil⟩
  | ask r next ih =>
    have hnot : o.cancelledAt false r = false := by simp [cancelledAt, hnever]
    obtain ⟨hc, hrest⟩ := ih (o.answer false r)
    simp only [drive, hnot, Bool.false_and, Bool.false_eq_true, if_false, List.cons_append,
      List.nil_append]
    refine ⟨hc, fun m hm => ?_⟩
    obtain rfl | rfl | hm : m = .asked w r ∨ m = .answered w ⟨r, o.answer false r⟩ ∨
        m ∈ (o.drive w false (next (o.answer false r))).history := by simpa using hm
    · trivial
    · rfl
    · exact hrest m hm

theorem fetchAll_conforms (hnever : ∀ r, o.cancels r = false) (n : Nat) (f : Fetching) :
    (o.fetchAll p n false f).cancelled = false ∧
      ∀ m ∈ (o.fetchAll p n false f).history, o.Conforms m := by
  induction n generalizing f with
  | zero => exact ⟨rfl, fun m hm => absurd hm List.not_mem_nil⟩
  | succ n ih =>
    cases hnext : f.next? with
    | none => simp [fetchAll, hnext]
    | some started =>
      obtain ⟨number, job, g⟩ := started
      obtain ⟨hc, hjob⟩ := drive_conforms hnever (.job number) (fetchOne p job)
      simp only [fetchAll, hnext, hc]
      obtain ⟨hrest, hothers⟩ := ih (g.finish number
        (o.drive (.job number) false (fetchOne p job)).result)
      refine ⟨hrest, fun m hm => ?_⟩
      obtain hm | rfl | hm := by simpa only [List.mem_append, List.mem_cons] using hm
      · exact hjob m hm
      · trivial
      · exact hothers m hm

/-- **Where nothing is cancelled, every answer is the one that was settled.** -/
theorem play_conforms (hnever : ∀ r, o.cancels r = false) :
    ∀ m ∈ (o.play p trigger false).history, o.Conforms m := by
  obtain ⟨hc, hchecked⟩ := drive_conforms hnever .epoch (checking p trigger)
  intro m hm
  unfold play at hm
  dsimp only at hm
  split at hm
  · rename_i epoch _
    obtain ⟨-, hconcluded⟩ := drive_conforms hnever .epoch (concluding epoch)
    simp only [hc, Bool.false_eq_true, if_false, List.nil_append, List.mem_append] at hm
    obtain hm | hm := hm
    · exact hchecked m hm
    · exact hconcluded m hm
  · rename_i epoch jobs _
    obtain ⟨hc', hfetched⟩ := fetchAll_conforms (p := p) hnever jobs.length
      (Fetching.create p.maxConcurrentFetches jobs)
    simp only [hc, hc', Bool.false_eq_true, if_false, List.nil_append, List.mem_append,
      List.mem_cons] at hm
    obtain hm | rfl | hm | hm := hm
    · exact hchecked m hm
    · trivial
    · exact hfetched m hm
    · exact (drive_conforms hnever .epoch _).2 m hm

/-- A call brings what it is to bring, in whatever way it is made. -/
theorem eq_of_conforms (ht : ∀ x ∈ t, o.Conforms x) {c : Call} {answer due : c.Answer}
    (hb : Brought t c answer) (wait : o.answer false (.wait c) = .ok due)
    (call : ∀ limit, o.answer false (.call c limit) = some (.ok due))
    (attempt : ∀ limit, o.answer false (.attempt c limit) = .answered (.ok due)) : answer = due := by
  obtain ⟨worker, e, he, hb⟩ := hb
  have hconforms := ht _ he
  cases hb with
  | wait => exact Except.ok.inj (hconforms.trans wait)
  | call limit => exact Except.ok.inj (Option.some.inj (hconforms.trans (call limit)))
  | attempt limit => exact Except.ok.inj (Ending.answered.inj (hconforms.trans (attempt limit)))

/-- Where nothing goes wrong, every call brings what it should. -/
theorem eq_ideal_of_conforms {m : Metadata} {stored : StoredVersions} {payload : Json}
    {cancels : Request → Bool} (ht : ∀ x ∈ t, (smooth m stored payload cancels).Conforms x) {c : Call}
    {answer : c.Answer} (hb : Brought t c answer) : answer = ideal m stored payload c :=
  eq_of_conforms ht hb rfl (fun _ => rfl) fun _ => rfl

end Conduct

end Engine

end ContentSync
