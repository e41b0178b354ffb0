import ContentSync.Proofs.Engine.Itemization

/-!
# Which phases an epoch shows

The phases of an epoch are shown by several programs, some of which run side by side. Together they go
through one course, which depends on nothing but the number of selected targets and the outcome.

* `Phase.fetches`, `Phase.closing` — the parts of the course;
* `phases` — the phases that have been shown so far;
* `Silent`, `Shows` — what programs show until they are done;
* `shows_checking`, `shows_finishing`, `shows_concluding` — what the programs of an epoch show;
* `Thread.HasShown` / `Thread.HasShown.step` — what a program has shown that has come this far;
* `Phased` / `Run.phased` — what has been shown in each situation;
* `Run.phases_atRest` — an epoch that waits has shown some phase, and never that it is idle;
* `Itinerary` / `Run.itinerary` — what an epoch has shown when it is over.
-/

set_option autoImplicit false

namespace ContentSync

/-! ## The course of phases -/

namespace Phase

/-- The phases in which targets are fetched, until some of them have come in. -/
def fetches (completed total : Nat) : List Phase :=
  (List.range (completed + 1)).map fun done => fetching done total

/-- The phases with which an epoch ends. -/
def closing (outcome : Option Outcome) : List Phase :=
  (if outcome = some .failure then [failed] else []) ++ [notifying, idle]

theorem fetches_zero (total : Nat) : fetches 0 total = [fetching 0 total] := rfl

theorem fetches_succ (completed total : Nat) :
    fetches (completed + 1) total = fetches completed total ++ [fetching (completed + 1) total] := by
  rw [fetches, List.range_succ, List.map_append]
  rfl

theorem idle_not_mem_fetches (completed total : Nat) : idle ∉ fetches completed total := by
  simp [fetches]

end Phase

/-- The phase that a request shows. -/
def Request.phase? : Request → Option Phase
  | publish phase => some phase
  | _ => none

namespace Engine

open Program

variable {α β : Type} {p : SyncPolicy} {trigger : Trigger} {t u : List Moment} {s : Situation}
  {epoch finished : Epoch} {h k : List Exchange} {r : Request}

/-- The phase that is shown at a moment. -/
def Moment.phase? : Moment → Option Phase
  | asked _ r => r.phase?
  | selected _ shown | progressed shown => some shown
  | cancelled | answered _ _ => none

/-- The phases that have been shown, in order. -/
def phases (t : List Moment) : List Phase := t.filterMap Moment.phase?

@[simp] theorem phases_nil : phases [] = [] := rfl

@[simp] theorem phases_cancelled : phases [.cancelled] = [] := rfl

@[simp] theorem phases_asked {w : Worker} :
    phases [.asked w r] = [r].filterMap Request.phase? := rfl

@[simp] theorem phases_answered {w : Worker} {e : Exchange} : phases [.answered w e] = [] := rfl

@[simp] theorem phases_selected {jobs : List Job} {shown : Phase} :
    phases [.selected jobs shown] = [shown] := rfl

@[simp] theorem phases_progressed {shown : Phase} : phases [.progressed shown] = [shown] := rfl

@[simp] theorem phases_append : phases (t ++ u) = phases t ++ phases u := List.filterMap_append

/-! ## What programs show -/

/-- The phases that are shown in some exchanges. -/
def phasesOf (h : List Exchange) : List Phase := h.filterMap (·.request.phase?)

@[simp] theorem phasesOf_nil : phasesOf [] = [] := rfl

@[simp] theorem phasesOf_singleton {e : Exchange} :
    phasesOf [e] = [e.request].filterMap Request.phase? := by
  rw [phasesOf, List.filterMap_cons, List.filterMap_cons]
  rfl

@[simp] theorem phasesOf_append : phasesOf (h ++ k) = phasesOf h ++ phasesOf k :=
  List.filterMap_append

@[simp] theorem phasesOf_opening (now : Timestamp) : phasesOf (opening now) = [.checking] := rfl

/-- A program that shows no phase. -/
def Silent (q : Program α) : Prop := ∀ h r, q.Asks h r → r.phase? = none

theorem Silent.phasesOf_eq_nil {q q' : Program α} (hq : Silent q) (hp : q.Path h q') :
    phasesOf h = [] := by
  refine List.filterMap_eq_nil_iff.2 fun e he => ?_
  obtain ⟨k, hasks⟩ := Path.asks_of_mem hp he
  exact hq k e.request hasks

theorem silent_pure (a : α) : Silent (pure a : Program α) := fun _ _ hr => (asks_pure.1 hr).elim

theorem Silent.bind {q : Program α} {f : α → Program β} (hq : Silent q) (hf : ∀ a, Silent (f a)) :
    Silent (q >>= f) := by
  intro h r hr
  obtain hr | ⟨_, _, a, -, -, hr⟩ := asks_bind.1 hr
  · exact hq h r hr
  · exact hf a _ r hr

theorem silent_withRetry (p : SyncPolicy) (what : String) (c : Call) :
    Silent (withRetry p what c) := by
  intro h r hr
  obtain rfl | ⟨_, rfl⟩ := (asks_withRetry hr).1 <;> rfl

theorem silent_bounded (p : SyncPolicy) (what : String) (late : String → Failure) (c : Call) :
    Silent (bounded p what late c) := by
  intro h r hr
  obtain ⟨-, rfl⟩ := asks_bounded.1 hr
  rfl

theorem silent_check (p : SyncPolicy) : Silent (check p) := by
  refine (silent_withRetry p _ _).bind fun ⟨_, advertised⟩ => ?_
  cases advertised with
  | error f => exact silent_pure _
  | ok m => exact (silent_bounded p _ _ _).bind fun _ => silent_pure _

theorem silent_selectKinds (p : SyncPolicy) (m : Metadata) (stored : StoredVersions)
    (kinds : List DataKind) : Silent (selectKinds p m stored kinds) := by
  intro h r hr
  obtain ⟨_, -, _, -, rfl⟩ := asks_selectKinds hr
  rfl

theorem silent_processKinds (p : SyncPolicy) (results : List Fetched) (reports : List KindReport) :
    Silent (processKinds p results reports) := by
  intro h r hr
  obtain ⟨_, -, hconcerns⟩ := asks_processKinds_concerns hr
  cases r <;> first | rfl | exact hconcerns.elim

theorem silent_fetchOne (p : SyncPolicy) (job : Job) : Silent (fetchOne p job) :=
  (silent_withRetry p _ _).bind fun _ => silent_pure _

/-- What a program shows until it is done, where the last phase alone may be that it is idle. -/
structure Shows (q : Program α) (all : α → List Phase) : Prop where
  ends : ∀ h a, q.Ends h a → phasesOf h = all a
  asks : ∀ h r, q.Asks h r → .idle ∉ phasesOf h

theorem Silent.shows {q : Program α} (hq : Silent q) : Shows q fun _ => [] where
  ends _ _ he := hq.phasesOf_eq_nil he
  asks _ _ := fun ⟨_, hp⟩ => by simp [hq.phasesOf_eq_nil hp]

theorem Shows.congr {q : Program α} {all all' : α → List Phase} (hq : Shows q all)
    (heq : ∀ h a, q.Ends h a → all a = all' a) : Shows q all' where
  ends h a he := (hq.ends h a he).trans (heq h a he)
  asks := hq.asks

theorem Shows.ask {next : r.Answer → Program α} {all : α → List Phase} (hr : r.phase? = none)
    (hnext : ∀ a, Shows (next a) all) : Shows (.ask r next) all where
  ends h b he := by
    obtain ⟨a, k, rfl, hk⟩ := ends_ask.1 he
    simpa [phasesOf, hr] using (hnext a).ends k b hk
  asks h r' ha := by
    obtain ⟨rfl, -⟩ | ⟨a, k, rfl, hk⟩ := asks_ask.1 ha
    · exact List.not_mem_nil
    · simpa [phasesOf, hr] using (hnext a).asks k r' hk

theorem Shows.publish {phase : Phase} {next : Unit → Program α} {all : α → List Phase}
    (hne : phase ≠ .idle) (hnext : Shows (next ()) all) :
    Shows (.ask (.publish phase) next) fun a => phase :: all a where
  ends h b he := by
    obtain ⟨a, k, rfl, hk⟩ := ends_ask.1 he
    exact congrArg (phase :: ·) (hnext.ends k b hk)
  asks h r' ha := by
    obtain ⟨rfl, -⟩ | ⟨a, k, rfl, hk⟩ := asks_ask.1 ha
    · exact List.not_mem_nil
    · exact List.not_mem_cons_of_ne_of_not_mem (Ne.symm hne) (hnext.asks k r' hk)

theorem Shows.bind {q : Program α} {f : α → Program β} {all : β → List Phase} (hq : Silent q)
    (hf : ∀ a, Shows (f a) all) : Shows (q >>= f) all where
  ends h b he := by
    obtain ⟨k, l, a, rfl, hk, hl⟩ := ends_bind.1 he
    rw [phasesOf_append, hq.phasesOf_eq_nil hk, List.nil_append]
    exact (hf a).ends l b hl
  asks h r ha := by
    obtain ⟨_, hp⟩ | ⟨k, l, a, rfl, hk, hl⟩ := asks_bind.1 ha
    · simp [hq.phasesOf_eq_nil hp]
    · rw [phasesOf_append, hq.phasesOf_eq_nil hk, List.nil_append]
      exact (hf a).asks l r hl

/-- The idle phase is shown last. -/
theorem shows_idle (finished : Epoch) :
    Shows (.ask (.publish .idle) fun _ => .done finished) fun _ => [.idle] where
  ends h b he := by
    obtain ⟨_, k, rfl, hk⟩ := ends_ask.1 he
    obtain ⟨rfl, -⟩ := ends_done.1 hk
    rfl
  asks h r ha := by
    obtain ⟨rfl, -⟩ | ⟨_, _, -, ha⟩ := asks_ask.1 ha
    · exact List.not_mem_nil
    · exact (asks_done.1 ha).elim

theorem shows_announcing (finished : Epoch) :
    Shows (announcing finished) fun _ => [.notifying, .idle] :=
  .publish (by decide) <| .ask rfl fun _ => .ask rfl fun _ => shows_idle finished

/-- **What an epoch shows at its end.** -/
theorem shows_concluding (epoch : Epoch) :
    Shows (concluding epoch) fun finished => Phase.closing finished.outcome := by
  refine .ask rfl fun now => ?_
  change Shows (if (epoch.finalize now).outcome = some .failure then _ else _) _
  split
  · rename_i hfailure
    refine (Shows.publish (by decide) (shows_announcing _)).congr fun h a he => ?_
    obtain ⟨_, _, -, he⟩ := ends_ask.1 he
    rw [ends_announcing he, Phase.closing, if_pos hfailure]
    rfl
  · rename_i hother
    refine (shows_announcing _).congr fun h a he => ?_
    rw [ends_announcing he, Phase.closing, if_neg hother]
    rfl

/-- **What an epoch shows after its fetches.** -/
theorem shows_finishing (p : SyncPolicy) (epoch : Epoch) (results : List Fetched) :
    Shows (writing p epoch results >>= concluding) fun finished =>
      .writing :: Phase.closing finished.outcome :=
  .ask rfl fun _ => .publish (by decide) <|
    .bind (((silent_processKinds p results epoch.kinds).bind fun _ => silent_pure _))
      shows_concluding

/-- What is left of the check once its phase has been shown. -/
theorem exists_checking (p : SyncPolicy) (trigger : Trigger) :
    ∃ rest : Timestamp → Program Checked, (∀ now, Silent (rest now)) ∧
      checking p trigger = .ask .clock fun now => .ask (.publish .checking) fun _ => rest now := by
  refine ⟨_, fun now => ?_, rfl⟩
  refine (silent_check p).bind fun result => ?_
  rcases result with f | ⟨m, stored⟩
  · cases f <;> exact silent_pure _
  · refine (silent_selectKinds p m stored _).bind fun sels => ?_
    split <;> exact silent_pure _

/-- **What an epoch shows in its check.** -/
theorem shows_checking (p : SyncPolicy) (trigger : Trigger) :
    Shows (checking p trigger) fun _ => [.checking] := by
  obtain ⟨rest, hrest, heq⟩ := exists_checking p trigger
  rw [heq]
  exact .ask rfl fun now => .publish (by decide) (hrest now).shows

/-- Whatever the check waits for, it has shown its phase before. -/
theorem phasesOf_checking_of_isAwaited (ha : (checking p trigger).Asks h r)
    (hr : r.isAwaited = true) : phasesOf h = [.checking] := by
  obtain ⟨rest, hrest, heq⟩ := exists_checking p trigger
  rw [heq, asks_ask] at ha
  obtain ⟨-, rfl⟩ | ⟨now, k, rfl, ha⟩ := ha
  · cases hr
  obtain ⟨-, rfl⟩ | ⟨_, l, rfl, ⟨_, hp⟩⟩ := asks_ask.1 ha
  · cases hr
  exact congrArg (Phase.checking :: ·) ((hrest now).phasesOf_eq_nil hp)

/-! ## What threads have shown -/

/-- What a program has shown that has come this far from where it began. -/
def Thread.HasShown (origin : Program α) (l : List Phase) (th : Thread α) : Prop :=
  ∃ h, origin.Path h th.program ∧ l = phasesOf h ++ th.pending.filterMap Request.phase?

section

variable {w : Worker} {cancelled : Bool} {m : Moment} {origin : Program α} {th th' : Thread α}
  {l : List Phase}

theorem Thread.hasShown_running (origin : Program α) : (running origin).HasShown origin [] :=
  ⟨[], .here _, rfl⟩

/-- **What a step shows is added.** -/
theorem Thread.HasShown.step (hl : th.HasShown origin l) (hs : th.Step w cancelled m th') :
    th'.HasShown origin (l ++ phases [m]) := by
  obtain ⟨h, hp, rfl⟩ := hl
  cases hs with
  | ask r next => exact ⟨h, hp, by simp⟩
  | answer r next a => exact ⟨_, hp.answer a, by simp⟩

/-- A program that is done has shown everything. -/
theorem Thread.HasShown.of_done {all : α → List Phase} {a : α} (hq : Shows origin all)
    (hl : (running (.done a)).HasShown origin l) : l = all a := by
  obtain ⟨h, hp, rfl⟩ := hl
  rw [hq.ends h a hp]
  exact List.append_nil _

/-- A program that waits has shown what it shows before it begins to. -/
theorem Thread.HasShown.of_atRest (hl : th.HasShown origin l) (hrest : th.AtRest) :
    ∃ h r, origin.Asks h r ∧ r.isAwaited = true ∧ l = phasesOf h := by
  obtain ⟨h, hp, rfl⟩ := hl
  cases th with
  | running => exact hrest.elim
  | waiting r next =>
    have hnone : r.phase? = none := by
      cases r <;> first | rfl | cases hrest
    exact ⟨h, r, ⟨next, hp⟩, hrest, by simp [hnone]⟩

theorem Thread.HasShown.idle_not_mem {all : α → List Phase} (hq : Shows origin all)
    (hl : th.HasShown origin l) (hrest : th.AtRest) : .idle ∉ l := by
  obtain ⟨h, r, hasks, -, rfl⟩ := hl.of_atRest hrest
  exact hq.asks h r hasks

end

/-! ## What epochs have shown -/

/-- What an epoch has shown that has come this far. -/
inductive Phased (p : SyncPolicy) (trigger : Trigger) (t : List Moment) : Situation → Prop
  | checking {th : Thread Checked} (unselected : selections t = [])
    (shown : th.HasShown (checking p trigger) (phases t)) : Phased p trigger t (.checking th)
  /-- Of the jobs that have been started, some have ended, and each of them has been shown. -/
  | fetching {epoch : Epoch} {f : Fetching} {slots : List (Nat × Thread Fetched)} {jobs : List Job}
    (selected : selections t = [jobs]) (total_eq : f.total = jobs.length)
    (counts : f.completed + slots.length = f.started)
    (phases_eq : phases t = .checking :: Phase.fetches f.completed f.total) :
    Phased p trigger t (.fetching epoch f slots)
  | concluding {th : Thread Epoch} {epoch : Epoch} {l : List Phase} (unselected : selections t = [])
    (phases_eq : phases t = .checking :: l) (shown : th.HasShown (concluding epoch) l) :
    Phased p trigger t (.writing th)
  | writing {th : Thread Epoch} {epoch : Epoch} {results : List Fetched} {jobs : List Job}
    {l : List Phase} (selected : selections t = [jobs])
    (phases_eq : phases t = .checking :: (Phase.fetches jobs.length jobs.length ++ l))
    (shown : th.HasShown (writing p epoch results >>= concluding) l) :
    Phased p trigger t (.writing th)

/-- When every job has ended, as many have been shown as were selected. -/
theorem Launched.completed_eq {f : Fetching} {slots : List (Nat × Thread Fetched)}
    {jobs : List Job} (hl : Launched p t jobs f slots) (hover : f.isOver = true)
    (counts : f.completed + slots.length = f.started) : f.completed = jobs.length := by
  obtain ⟨hlength, -⟩ := hl.fits.results hover
  have hnumbers := hl.numbers
  simp only [Fetching.isOver, Bool.and_eq_true, List.isEmpty_iff] at hover
  rw [hover.2] at hnumbers
  obtain rfl := List.map_eq_nil_iff.1 hnumbers
  rw [Fetching.started, hover.2, hlength] at counts
  exact counts

/-- **A step adds the next phases of the course.** -/
theorem Phased.step {s' : Situation} {cancelled : Bool} {o : Option Moment}
    (hp : Phased p trigger t s) (run : Run p trigger t s) (hs : s.Step p cancelled o s') :
    Phased p trigger (t ++ o.toList) s' := by
  cases hs with
  | check hth =>
    cases hp with
    | checking unselected shown =>
      exact .checking (by simp [unselected, hth.selections_eq]) (by simpa using shown.step hth)
  | stop epoch =>
    cases hp with
    | checking unselected shown =>
      have hshown := shown.of_done (shows_checking p trigger)
      rw [Option.toList_none, List.append_nil]
      exact .concluding unselected hshown (Thread.hasShown_running _)
  | @select epoch jobs f hf =>
    cases hp with
    | checking unselected shown =>
      subst hf
      have hselected : selections (t ++ [.selected jobs
          (Fetching.create p.maxConcurrentFetches jobs).phase]) = [jobs] := by simp [unselected]
      refine .fetching hselected rfl rfl ?_
      simp [shown.of_done (shows_checking p trigger), Fetching.phase, Fetching.create,
        Phase.fetches_zero]
  | launch hf =>
    cases hp with
    | fetching selected total_eq counts phases_eq =>
      obtain ⟨_, -, -, rfl⟩ := Fetching.next?_eq_some hf
      rw [Option.toList_none, List.append_nil]
      refine .fetching selected total_eq ?_ phases_eq
      simp only [Fetching.started, List.length_append, List.length_singleton] at counts ⊢
      omega
  | @fetch epoch f before after number th th' m hth =>
    cases hp with
    | fetching selected total_eq counts phases_eq =>
      -- A job shows nothing by itself.
      have hsilent : phases [m] = [] := by
        cases hth with
        | answer => rfl
        | ask r next =>
          cases run.accounts with
          | fetching _ _ _ launched =>
            obtain ⟨job, -, hpath⟩ := launched.threads (number, .running (.ask r next)) (by simp)
            simp [silent_fetchOne p job _ r ⟨next, hpath⟩]
      refine .fetching ?_ total_eq ?_ ?_
      · simp [selected, hth.selections_eq]
      · simpa using counts
      · simp [phases_eq, hsilent]
  | @land epoch f before after number result =>
    cases hp with
    | fetching selected total_eq counts phases_eq =>
      refine .fetching (by simpa using selected) total_eq ?_ ?_
      · have hcompleted : (f.finish number result).completed = f.completed + 1 := rfl
        rw [Fetching.started_finish, hcompleted, ← counts]
        simp only [List.length_append, List.length_cons]
        omega
      · simp [phases_eq, Fetching.phase, Fetching.finish, Phase.fetches_succ]
  | @collect epoch f slots hover =>
    cases hp with
    | fetching selected total_eq counts phases_eq =>
      cases run.accounts with
      | fetching _ _ selected' launched =>
        rw [selected, List.singleton_inj] at selected'
        subst selected'
        rw [launched.completed_eq hover counts, total_eq] at phases_eq
        rw [Option.toList_none, List.append_nil]
        exact .writing selected (by rw [phases_eq, List.append_nil]) (Thread.hasShown_running _)
  | @write th th' m hth =>
    cases hp with
    | concluding unselected phases_eq shown =>
      exact .concluding (by simp [unselected, hth.selections_eq]) (by simp [phases_eq])
        (shown.step hth)
    | @writing _ _ _ jobs _ selected phases_eq shown =>
      have hselected : selections (t ++ [m]) = [jobs] := by simp [selected, hth.selections_eq]
      exact .writing hselected (by simp [phases_eq]) (shown.step hth)

/-- A cancellation shows nothing. -/
theorem Phased.cancel (hp : Phased p trigger t s) : Phased p trigger (t ++ [.cancelled]) s := by
  have hphases : phases (t ++ [.cancelled]) = phases t := by simp
  have hselections : selections (t ++ [.cancelled]) = selections t := by simp
  cases hp with
  | checking unselected shown => exact .checking (hselections ▸ unselected) (hphases ▸ shown)
  | fetching selected total_eq counts phases_eq =>
    exact .fetching (hselections ▸ selected) total_eq counts (hphases ▸ phases_eq)
  | concluding unselected phases_eq shown =>
    exact .concluding (hselections ▸ unselected) (hphases ▸ phases_eq) shown
  | writing selected phases_eq shown =>
    exact .writing (hselections ▸ selected) (hphases ▸ phases_eq) shown

/-- **What an epoch has shown**, at any time. -/
theorem Run.phased (run : Run p trigger t s) : Phased p trigger t s := by
  induction run with
  | start => exact .checking rfl (Thread.hasShown_running _)
  | startCancelled => exact .checking rfl (Thread.hasShown_running _)
  | step run hs ih => exact ih.step run hs
  | cancel _ _ _ ih => exact ih.cancel

/-- **An epoch that waits has shown some phase, and not that it is idle.** -/
theorem Run.phases_atRest (run : Run p trigger t s) (hrest : s.AtRest) :
    phases t ≠ [] ∧ .idle ∉ phases t := by
  cases run.phased with
  | checking _ shown =>
    obtain ⟨h, r, hasks, hawaited, heq⟩ := shown.of_atRest hrest
    rw [heq, phasesOf_checking_of_isAwaited hasks hawaited]
    decide
  | fetching _ _ _ phases_eq =>
    rw [phases_eq]
    simp [Phase.idle_not_mem_fetches]
  | concluding _ phases_eq shown =>
    have hnot := shown.idle_not_mem (shows_concluding _) hrest
    rw [phases_eq]
    simp [hnot]
  | writing _ phases_eq shown =>
    have hnot := shown.idle_not_mem (shows_finishing p _ _) hrest
    rw [phases_eq]
    simp [hnot, Phase.idle_not_mem_fetches]

/-- The course of phases that an epoch has gone through when it is over. -/
inductive Itinerary (t : List Moment) (epoch : Epoch) : Prop
  /-- Nothing was selected. -/
  | unselected (kinds_eq : epoch.kinds = []) (selections_eq : selections t = [])
    (phases_eq : phases t = .checking :: Phase.closing epoch.outcome) : Itinerary t epoch
  /-- Some targets were selected, and they have come in one after another. -/
  | selected {jobs : List Job} (kinds_ne : epoch.kinds ≠ []) (selections_eq : selections t = [jobs])
    (targets_eq : epoch.targets.map (·.target) = jobs.map (·.1))
    (phases_eq : phases t = .checking :: (Phase.fetches jobs.length jobs.length ++
      .writing :: Phase.closing epoch.outcome)) : Itinerary t epoch

/-- **What an epoch has shown when it is over.** -/
theorem Run.itinerary (run : Run p trigger t (.ended epoch)) : Itinerary t epoch := by
  cases run.phased with
  | concluding unselected phases_eq shown =>
    rw [shown.of_done (shows_concluding _)] at phases_eq
    refine .unselected ?_ unselected phases_eq
    cases run.closed with
    | failed kinds_eq => exact kinds_eq
    | idle kinds_eq => exact kinds_eq
    | completed _ completed => simp [completed.selections_eq] at unselected
  | @writing th e results jobs l selected phases_eq shown =>
    rw [shown.of_done (shows_finishing p _ _)] at phases_eq
    obtain ⟨m, stored, sels, results, settled, completed⟩ :=
      run.completed_of_selected (by simp [selected])
    have hjobs : sels.flatMap Selection.jobs = jobs := by
      simpa [completed.selections_eq] using selected
    refine .selected (fun hnil => completed.ne_nil ?_) selected ?_ phases_eq
    · have hkinds := completed.kinds_eq
      rw [hnil, List.map_nil] at hkinds
      exact List.map_eq_nil_iff.1 hkinds.symm
    · rw [completed.map_target settled, ← map_jobs, hjobs]

end Engine

end ContentSync
