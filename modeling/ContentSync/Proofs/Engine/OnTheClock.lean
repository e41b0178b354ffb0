import ContentSync.Engine.Stage
import ContentSync.Proofs.Engine.Run

/-!
# Epochs on the clock are runs

The engine runs its programs on a clock, with collaborators of any kind. Whatever these do, and
whatever becomes of them between one round and the next, an epoch on the clock is a run.

* `Env.Moves` — what the moments of an epoch do to what programs run in;
* `Comes` — an epoch comes from one situation to another;
* `runEpoch_comes`, `Stage.resume_comes` — an epoch comes as far as the clock takes it;
* `OnClock` — what can become of an epoch on the clock;
* `OnClock.run` — it is a run.

So whatever holds of all runs holds of every epoch on the clock.
-/

set_option autoImplicit false

namespace ContentSync.Engine

variable {σ α : Type} {k : Collaborators σ} {cancelled : Bool}

/-! ## Answers -/

/-- An attempt that ran to its end tells nothing of a cancellation. -/
theorem admits_ofResult? {c : Call} {limit : Duration}
    (result : Option (Except Failure c.Answer)) :
    (Request.attempt c limit).Admits cancelled (Ending.ofResult? result) := by
  cases result <;> trivial

theorem Reply.map_eq_answer {β γ : Type} {f : β → γ} {reply : Reply β} {a : γ}
    (h : reply.map f = .answer a) : ∃ b, f b = a := by
  cases reply with
  | answer b =>
    cases h
    exact ⟨b, rfl⟩
  | hold => cases h

/-- What is answered at once can be answered. -/
theorem Env.respond_admits {e e' : Env σ} {r : Request} {a : r.Answer}
    (h : e.respond k cancelled r = (e', .answer a)) : r.Admits cancelled a := by
  cases r with
  | isCancelled =>
    cases h
    rfl
  | attempt c limit =>
    simp only [Env.respond] at h
    split at h
    · cases h
      assumption
    · obtain ⟨result, rfl⟩ := Reply.map_eq_answer (congrArg Prod.snd h)
      exact admits_ofResult? result
  | pause length =>
    simp only [Env.respond] at h
    split at h
    · exact fun _ => by assumption
    · split at h <;> cases h
      exact fun hcut => by cases hcut
  | publish | clock | announce | remember | wait | call | compute => trivial

/-- Whatever is waited for takes its time. -/
theorem Env.isAwaited_of_respond {e e' : Env σ} {r : Request} {h : Hold}
    (heq : e.respond k cancelled r = (e', .hold h)) : r.isAwaited = true := by
  cases r with
  | publish | isCancelled | clock | announce => cases heq
  | remember | wait | call | attempt | pause | compute => rfl

/-- What is answered later can be answered then. -/
theorem Env.resume_admits {e e' : Env σ} {r : Request} {h : Hold} {a : r.Answer}
    (heq : e.resume k cancelled r h = (e', .answer a)) : r.Admits cancelled a := by
  cases r with
  | isCancelled => cases heq
  | attempt c limit =>
    cases h with
    | opening round =>
      simp only [Env.resume] at heq
      split at heq
      · cases heq
        assumption
      · obtain ⟨result, rfl⟩ := Reply.map_eq_answer (congrArg Prod.snd heq)
        exact admits_ofResult? result
    | underWay course due late =>
      simp only [Env.resume] at heq
      split at heq
      · cases heq
        assumption
      · cases heq
        exact admits_ofResult? _
    | pausing | computing => cases heq
  | pause length =>
    cases h with
    | pausing due =>
      cases heq
      exact fun hcut => hcut
    | opening | underWay | computing => cases heq
  | publish | clock | announce | remember | wait | call | compute => trivial

/-! ## Programs on the clock -/

/-- What the moments of an epoch do to what programs run in. -/
inductive Env.Moves (k : Collaborators σ) (cancelled : Bool) :
    Env σ → List Moment → Env σ → Prop
  | refl (e : Env σ) : Moves k cancelled e [] e
  | trans {e₁ e₂ e₃ : Env σ} {t u : List Moment} (first : Moves k cancelled e₁ t e₂)
    (second : Moves k cancelled e₂ u e₃) : Moves k cancelled e₁ (t ++ u) e₃
  /-- A request is answered at once. -/
  | served {e e' : Env σ} {w : Worker} {r : Request} {a : r.Answer}
    (respond_eq : e.respond k cancelled r = (e', .answer a)) :
    Moves k cancelled e [.asked w r, .answered w ⟨r, a⟩] e'
  /-- A request has to wait. -/
  | held {e e' : Env σ} {w : Worker} {r : Request} {h : Hold}
    (respond_eq : e.respond k cancelled r = (e', .hold h)) :
    Moves k cancelled e [.asked w r] e'.number.2
  /-- A request that has waited is answered. -/
  | resumed {e e' : Env σ} {w : Worker} {r : Request} {h : Hold} {a : r.Answer}
    (resume_eq : e.resume k cancelled r h = (e', .answer a)) :
    Moves k cancelled e [.answered w ⟨r, a⟩] e'
  /-- A request that has waited goes on to wait. -/
  | still {e e' : Env σ} {r : Request} {h h' : Hold}
    (resume_eq : e.resume k cancelled r h = (e', .hold h')) :
    Moves k cancelled e [] e'.number.2
  | selected {e : Env σ} (jobs : List Job) (shown : Phase) :
    Moves k cancelled e [.selected jobs shown] (e.publish shown)
  | progressed {e : Env σ} (shown : Phase) :
    Moves k cancelled e [.progressed shown] (e.publish shown)
  /-- The epoch is over, and another one can be let in. -/
  | released {e : Env σ} : Moves k cancelled e [] e.release

/-- The thread of a program that waits. -/
def Wait.thread (w : Wait α) : Thread α := .waiting w.request w.next

/-- The thread of a program after some progress. -/
def Progress.thread : Progress α → Thread α
  | finished a => .running (.done a)
  | waiting w => w.thread

/-- A program that has not finished waits for an answer that takes its time. -/
def Progress.AtRest : Progress α → Prop
  | finished _ => True
  | waiting w => w.thread.AtRest

/-- An epoch comes to a situation, and its moments do to what programs run in what they say. -/
def Comes (p : SyncPolicy) (trigger : Trigger) (k : Collaborators σ) (cancelled : Bool)
    (t : List Moment) (e e' : Env σ) (s : Situation) : Prop :=
  ∃ u, Run p trigger (t ++ u) s ∧ wasCancelled (t ++ u) = cancelled ∧ e.Moves k cancelled u e'

section

variable {p : SyncPolicy} {trigger : Trigger} {t : List Moment} {e e₁ e' : Env σ}
  {s s' : Situation}

theorem Comes.refl (run : Run p trigger t s) (hc : wasCancelled t = cancelled) :
    Comes p trigger k cancelled t e e s :=
  ⟨[], by simpa using run, by simpa using hc, .refl e⟩

/-- An epoch that has moved comes as far as it comes from there. -/
theorem Comes.after {u : List Moment} (hmoves : e.Moves k cancelled u e₁)
    (h : Comes p trigger k cancelled (t ++ u) e₁ e' s') :
    Comes p trigger k cancelled t e e' s' := by
  obtain ⟨v, run, hc, hmoves'⟩ := h
  rw [List.append_assoc] at run hc
  exact ⟨u ++ v, run, hc, hmoves.trans hmoves'⟩

/-- A worker's program comes as far as the clock takes it, wherever its steps are steps of the
situation. -/
theorem advance_comes {w : Worker} {q : Program α} {progress : Progress α}
    (place : Thread α → Situation)
    (hstep : ∀ {th th' m c}, th.Step w c m th' → (place th).Step p c (some m) (place th'))
    (run : Run p trigger t (place (.running q))) (hc : wasCancelled t = cancelled)
    (h : advance k cancelled e q = (e', progress)) :
    Comes p trigger k cancelled t e e' (place progress.thread) ∧ progress.AtRest := by
  induction q generalizing t e with
  | done a =>
    cases h
    exact ⟨.refl run hc, trivial⟩
  | ask r next ih =>
    subst hc
    have hasked := run.step (hstep (.ask r next))
    unfold advance at h
    cases hres : e.respond k (wasCancelled t) r with
    | mk e₁ reply =>
      rw [hres] at h
      cases reply with
      | hold hd =>
        cases h
        refine ⟨⟨[.asked w r], hasked, by simp [wasCancelled], .held hres⟩, ?_⟩
        exact Env.isAwaited_of_respond hres
      | answer a =>
        have hcancelled : wasCancelled (t ++ (some (Moment.asked w r)).toList) = wasCancelled t := by
          simp [wasCancelled]
        have hadmits := Env.respond_admits hres
        rw [← hcancelled] at hadmits
        have hanswered := hasked.step (hstep (.answer r next a hadmits))
        rw [List.append_assoc] at hanswered
        obtain ⟨hcomes, hrest⟩ := ih a hanswered (by simp [wasCancelled]) h
        exact ⟨.after (.served hres) hcomes, hrest⟩

/-- A worker's program that has waited comes as far as the clock takes it. -/
theorem Wait.resume_comes {w : Worker} {wait : Wait α} {progress : Progress α}
    (place : Thread α → Situation)
    (hstep : ∀ {th th' m c}, th.Step w c m th' → (place th).Step p c (some m) (place th'))
    (run : Run p trigger t (place wait.thread)) (hc : wasCancelled t = cancelled)
    (h : wait.resume k cancelled e = (e', progress)) :
    Comes p trigger k cancelled t e e' (place progress.thread) ∧
      (wait.thread.AtRest → progress.AtRest) := by
  unfold Wait.resume at h
  split at h
  · cases hres : e.resume k cancelled wait.request wait.hold with
    | mk e₁ reply =>
      rw [hres] at h
      cases reply with
      | hold hd =>
        cases h
        rw [← List.append_nil t] at run hc
        exact ⟨⟨[], run, hc, .still hres⟩, id⟩
      | answer a =>
        subst hc
        have hanswered := run.step (hstep (.answer _ wait.next a (Env.resume_admits hres)))
        obtain ⟨hcomes, hrest⟩ := advance_comes place hstep hanswered (by simp [wasCancelled]) h
        exact ⟨.after (.resumed hres) hcomes, fun _ => hrest⟩
  · cases h
    exact ⟨.refl run hc, id⟩

end

/-! ## Epochs on the clock -/

/-- The threads of jobs that wait. -/
def threads (slots : List (Nat × Wait Fetched)) : List (Nat × Thread Fetched) :=
  slots.map fun slot => (slot.1, slot.2.thread)

@[simp] theorem threads_nil : threads [] = [] := rfl

@[simp] theorem threads_cons {number : Nat} {w : Wait Fetched} {slots : List (Nat × Wait Fetched)} :
    threads ((number, w) :: slots) = (number, w.thread) :: threads slots := rfl

@[simp] theorem threads_append {slots others : List (Nat × Wait Fetched)} :
    threads (slots ++ others) = threads slots ++ threads others := List.map_append

/-- The situation of an epoch under way. -/
def Stage.situation : Stage → Situation
  | checking w => .checking w.thread
  | fetching epoch f slots => .fetching epoch f (threads slots)
  | writing w => .writing w.thread

/-- The situation of an epoch after some progress. -/
def Standing.situation : Standing → Situation
  | ended epoch => .ended epoch
  | under stage => stage.situation

/-- An epoch that is not over can be cancelled. -/
def Standing.AtRest : Standing → Prop
  | ended _ => True
  | under stage => stage.situation.AtRest

section

variable {s : Setup σ} {trigger : Trigger} {t : List Moment} {e e' : Env σ} {epoch : Epoch}
  {f f' : Fetching} {slots slots' before : List (Nat × Wait Fetched)} {standing : Standing}

theorem runConcluding_comes {e₁ : Env σ} {progress : Progress Epoch}
    (hcomes : Comes s.policy trigger s.collaborators cancelled t e e₁ (.writing progress.thread))
    (hrest : progress.AtRest) (h : runConcluding (e₁, progress) = (e', standing)) :
    Comes s.policy trigger s.collaborators cancelled t e e' standing.situation ∧
      standing.AtRest := by
  cases progress with
  | finished epoch =>
    cases h
    obtain ⟨u, run, hc, hmoves⟩ := hcomes
    refine ⟨⟨u, run, hc, ?_⟩, trivial⟩
    simpa using hmoves.trans .released
  | waiting w =>
    cases h
    exact ⟨hcomes, hrest⟩

theorem runWriting_comes {q : Program Epoch}
    (run : Run s.policy trigger t (.writing (.running q))) (hc : wasCancelled t = cancelled)
    (h : runWriting s cancelled e q = (e', standing)) :
    Comes s.policy trigger s.collaborators cancelled t e e' standing.situation ∧
      standing.AtRest := by
  unfold runWriting at h
  obtain ⟨hcomes, hrest⟩ := advance_comes .writing .write run hc rfl
  exact runConcluding_comes hcomes hrest h

theorem startJobs_comes (run : Run s.policy trigger t (.fetching epoch f (threads slots)))
    (hc : wasCancelled t = cancelled)
    (h : startJobs s cancelled e f slots = (e', f', slots')) :
    Comes s.policy trigger s.collaborators cancelled t e e'
      (.fetching epoch f' (threads slots')) := by
  fun_induction startJobs s cancelled e f slots generalizing t with
  | case1 =>
    cases h
    exact .refl run hc
  | case2 e f slots number job g hnext _ e₁ result hadvance _ ih =>
    have hlaunched := run.step (.launch hnext)
    rw [Option.toList_none, List.append_nil] at hlaunched
    obtain ⟨⟨u, hfetched, hc, hmoves⟩, -⟩ := advance_comes
      (fun th => .fetching epoch g (threads slots ++ (number, th) :: [])) .fetch hlaunched hc hadvance
    have hlanded := hfetched.step (.land result)
    rw [List.append_nil] at hlanded
    exact .after hmoves (.after (.progressed _) (ih hlanded (by simpa [wasCancelled] using hc) h))
  | case3 e f slots number job g hnext _ e₁ w hadvance ih =>
    have hlaunched := run.step (.launch hnext)
    rw [Option.toList_none, List.append_nil] at hlaunched
    obtain ⟨⟨u, hwaiting, hc, hmoves⟩, -⟩ := advance_comes
      (fun th => .fetching epoch g (threads slots ++ (number, th) :: [])) .fetch hlaunched hc hadvance
    exact .after hmoves (ih (by simpa [Progress.thread] using hwaiting) hc h)

theorem runFetching_comes (run : Run s.policy trigger t (.fetching epoch f (threads slots)))
    (hc : wasCancelled t = cancelled)
    (h : runFetching s cancelled e epoch f slots = (e', standing)) :
    Comes s.policy trigger s.collaborators cancelled t e e' standing.situation ∧
      standing.AtRest := by
  unfold runFetching at h
  cases hstart : startJobs s cancelled e f slots with
  | mk e₁ started =>
  obtain ⟨f₁, slots₁⟩ := started
  rw [hstart] at h
  obtain ⟨u, run, hc, hmoves⟩ := startJobs_comes run hc hstart
  dsimp only at h
  split at h
  · rename_i hover
    have hcollected := run.step (.collect hover)
    rw [Option.toList_none, List.append_nil] at hcollected
    obtain ⟨hcomes, hrest⟩ := runWriting_comes hcollected hc h
    exact ⟨.after hmoves hcomes, hrest⟩
  · cases h
    exact ⟨⟨u, run, hc, hmoves⟩, trivial⟩

theorem runChecked_comes {e₁ : Env σ} {progress : Progress Checked}
    (hcomes : Comes s.policy trigger s.collaborators cancelled t e e₁ (.checking progress.thread))
    (hrest : progress.AtRest) (h : runChecked s cancelled (e₁, progress) = (e', standing)) :
    Comes s.policy trigger s.collaborators cancelled t e e' standing.situation ∧
      standing.AtRest := by
  obtain ⟨u, run, hc, hmoves⟩ := hcomes
  cases progress with
  | waiting w =>
    cases h
    exact ⟨⟨u, run, hc, hmoves⟩, hrest⟩
  | finished checked =>
    cases checked with
    | stopped epoch =>
      have hstopped := run.step (.stop epoch)
      rw [Option.toList_none, List.append_nil] at hstopped
      obtain ⟨hcomes, hrest⟩ := runWriting_comes hstopped hc h
      exact ⟨.after hmoves hcomes, hrest⟩
    | ready epoch jobs =>
      have hselected : Run s.policy trigger _ (.fetching epoch _ (threads [])) :=
        run.step (.select epoch jobs rfl)
      obtain ⟨hcomes, hrest⟩ := runFetching_comes hselected (by simpa [wasCancelled] using hc) h
      exact ⟨.after hmoves (.after (.selected jobs _) hcomes), hrest⟩

theorem resumeJobs_comes
    (run : Run s.policy trigger t (.fetching epoch f (threads before ++ threads slots)))
    (hc : wasCancelled t = cancelled) (h : resumeJobs s cancelled e f slots = (e', f', slots')) :
    Comes s.policy trigger s.collaborators cancelled t e e'
      (.fetching epoch f' (threads before ++ threads slots')) := by
  induction slots generalizing t e f before slots' with
  | nil =>
    cases h
    exact .refl run hc
  | cons slot rest ih =>
    obtain ⟨number, w⟩ := slot
    unfold resumeJobs at h
    cases hresume : w.resume s.collaborators cancelled e with
    | mk e₁ progress =>
      rw [hresume] at h
      obtain ⟨⟨u, run, hc, hmoves⟩, -⟩ := Wait.resume_comes
        (fun th => .fetching epoch f (threads before ++ (number, th) :: threads rest)) .fetch run hc
        hresume
      cases progress with
      | finished result =>
        have hlanded := run.step (.land result)
        exact .after hmoves (.after (.progressed _)
          (ih hlanded (by simpa [wasCancelled] using hc) h))
      | waiting w =>
        cases hrest : resumeJobs s cancelled e₁ f rest with
        | mk e₂ resumed =>
          obtain ⟨f₂, slots₂⟩ := resumed
          dsimp only at h
          rw [hrest] at h
          cases h
          have run' : Run s.policy trigger (t ++ u)
              (.fetching epoch f (threads (before ++ [(number, w)]) ++ threads rest)) := by
            simpa [Progress.thread] using run
          have hcomes := ih run' hc hrest
          exact .after hmoves (by simpa using hcomes)

/-- **An epoch that is let in comes as far as the clock takes it.** -/
theorem runEpoch_comes (run : Run s.policy trigger t (.start s.policy trigger))
    (hc : wasCancelled t = cancelled) (h : runEpoch s cancelled e trigger = (e', standing)) :
    Comes s.policy trigger s.collaborators cancelled t e e' standing.situation ∧
      standing.AtRest := by
  unfold runEpoch at h
  obtain ⟨hcomes, hrest⟩ := advance_comes .checking .check run hc rfl
  exact runChecked_comes hcomes hrest h

/-- **An epoch that is gone on with comes as far as the clock takes it.** -/
theorem Stage.resume_comes {stage : Stage} (run : Run s.policy trigger t stage.situation)
    (hrest : stage.situation.AtRest) (hc : wasCancelled t = cancelled)
    (h : stage.resume s cancelled e = (e', standing)) :
    Comes s.policy trigger s.collaborators cancelled t e e' standing.situation ∧
      standing.AtRest := by
  cases stage with
  | checking w =>
    obtain ⟨hcomes, hrest'⟩ := Wait.resume_comes .checking .check run hc rfl
    exact runChecked_comes hcomes (hrest' hrest) h
  | fetching epoch f slots =>
    cases hresume : resumeJobs s cancelled e f slots with
    | mk e₁ resumed =>
      obtain ⟨f₁, slots₁⟩ := resumed
      simp only [Stage.resume, hresume] at h
      have run : Run s.policy trigger t (.fetching epoch f (threads [] ++ threads slots)) := run
      obtain ⟨u, run, hc, hmoves⟩ := resumeJobs_comes run hc hresume
      obtain ⟨hcomes, hrest⟩ := runFetching_comes run hc h
      exact ⟨.after hmoves hcomes, hrest⟩
  | writing w =>
    obtain ⟨hcomes, hrest'⟩ := Wait.resume_comes .writing .write run hc rfl
    exact runConcluding_comes hcomes (hrest' hrest) h

end

/-! ## All epochs on the clock -/

section

variable {p : SyncPolicy} {trigger : Trigger}

/-- An epoch starts, after it has been cancelled or not. -/
theorem exists_start (p : SyncPolicy) (trigger : Trigger) (cancelled : Bool) :
    ∃ t, Run p trigger t (.start p trigger) ∧ wasCancelled t = cancelled ∧ t ⊆ [.cancelled] := by
  cases cancelled with
  | false => exact ⟨[], .start, rfl, List.nil_subset _⟩
  | true => exact ⟨[.cancelled], .startCancelled, rfl, List.Subset.refl _⟩

/-- An epoch that goes on is cancelled before, unless it has been cancelled already. -/
theorem Run.exists_later {t : List Moment} {s : Situation} {later : Bool}
    (run : Run p trigger t s) (hrest : s.AtRest) (stays : wasCancelled t = true → later = true) :
    ∃ u, Run p trigger (t ++ u) s ∧ wasCancelled (t ++ u) = later ∧ u ⊆ [.cancelled] := by
  by_cases hsame : wasCancelled t = later
  · exact ⟨[], by simpa using run, by simpa using hsame, List.nil_subset _⟩
  · obtain ⟨hbefore, rfl⟩ : wasCancelled t = false ∧ later = true := by
      cases hc : wasCancelled t <;> cases later <;> simp_all
    exact ⟨[.cancelled], run.cancel hrest hbefore, by simp [wasCancelled], List.Subset.refl _⟩

end

/-- What can become of an epoch on the clock, and whether it has been cancelled. It is let in, and
gone on with again and again. In between anything may become of what programs run in, and the epoch
may be cancelled. -/
inductive OnClock (s : Setup σ) (trigger : Trigger) : Bool → Standing → Prop
  | begun {cancelled : Bool} {e e' : Env σ} {standing : Standing}
    (begin_eq : runEpoch s cancelled e trigger = (e', standing)) :
    OnClock s trigger cancelled standing
  | resumed {cancelled later : Bool} {e e' : Env σ} {stage : Stage} {standing : Standing}
    (clock : OnClock s trigger cancelled (.under stage)) (stays : cancelled = true → later = true)
    (resume_eq : stage.resume s later e = (e', standing)) : OnClock s trigger later standing

/-- **An epoch on the clock is a run.** -/
theorem OnClock.run {s : Setup σ} {trigger : Trigger} {standing : Standing}
    (clock : OnClock s trigger cancelled standing) :
    ∃ t, Run s.policy trigger t standing.situation ∧ wasCancelled t = cancelled ∧
      standing.AtRest := by
  induction clock with
  | @begun cancelled e e' standing begin_eq =>
    obtain ⟨t, run, hc, -⟩ := exists_start s.policy trigger cancelled
    obtain ⟨⟨u, run, hc, -⟩, hrest⟩ := runEpoch_comes run hc begin_eq
    exact ⟨t ++ u, run, hc, hrest⟩
  | @resumed cancelled later e e' stage standing clock stays resume_eq ih =>
    obtain ⟨t, run, rfl, hrest⟩ := ih
    obtain ⟨u, run, hc, -⟩ := run.exists_later hrest stays
    obtain ⟨⟨v, run, hc, -⟩, hrest⟩ := Stage.resume_comes run hrest hc resume_eq
    exact ⟨_, run, hc, hrest⟩

end ContentSync.Engine
