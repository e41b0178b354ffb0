import ContentSync.Proofs.Engine.Length
import ContentSync.Proofs.Engine.OnTheClock
import ContentSync.Proofs.Engine.Progress

/-!
# Waiting on the clock

Whatever an epoch waits for on the clock comes, and whenever it goes on it has less left to wait for.

* `Hold.Delays` — why a request can be waiting;
* `Wait.isNow_of_patience` — once its time has come, a program that waits can go on;
* `Wait.Lasts` / `Wait.resume_lasts` — going on leaves fewer things to wait for;
* `Stage.Lasts` / `Stage.resume_lasts` — the same for a whole epoch;
* `OnClock.lasts` — so every epoch on the clock has only so much left to wait for;
* `OnClock.exists_isNow` — and it can go on once its time has come.
-/

set_option autoImplicit false

namespace ContentSync.Engine

variable {σ α : Type} {k : Collaborators σ} {cancelled : Bool} {e e' : Env σ}

/-! ## Requests that wait -/

/-- Why a request can be waiting. A call with a limit that is under way is so until a time. -/
inductive Hold.Delays : Hold → Request → Prop
  | callOpening (round : Nat) (c : Call) (limit : Duration) :
    Delays (.opening round) (.call c limit)
  | callUnderWay (course : Course) (due : Nat) (late : Bool) (c : Call) (limit : Duration) :
    Delays (.underWay course (some due) late) (.call c limit)
  | attemptOpening (round : Nat) (c : Call) (limit : Duration) :
    Delays (.opening round) (.attempt c limit)
  | attemptUnderWay (course : Course) (due : Nat) (late : Bool) (c : Call) (limit : Duration) :
    Delays (.underWay course (some due) late) (.attempt c limit)
  | pausing (due : Nat) (length : Duration) : Delays (.pausing due) (.pause length)
  | computing : Delays .computing .compute

/-- How often a request goes on before it is answered, at most. -/
def Hold.weight : Hold → Nat
  | .opening _ => 2
  | _ => 1

/-- The time and the round after which a request can go on. -/
def Hold.patience : Hold → Nat
  | .opening round => round + 1
  | .underWay _ (some due) _ | .pausing due => due
  | .underWay _ none _ | .computing => 0

theorem Hold.weight_pos (h : Hold) : 0 < h.weight := by
  cases h <;> exact Nat.succ_pos _

theorem Hold.weight_le (h : Hold) : h.weight ≤ 2 := by
  cases h <;> simp [weight]

theorem Reply.map_eq_hold {β γ : Type} {f : β → γ} {reply : Reply β} {h : Hold}
    (heq : reply.map f = .hold h) : reply = .hold h := by
  cases reply with
  | answer => cases heq
  | hold =>
    cases heq
    rfl

/-- A call with a limit that has started is under way until a time. -/
theorem Env.openLimited_hold {c : Call} {limit : Nat} {h : Hold}
    (heq : (e.openLimited k c limit).2 = .hold h) :
    ∃ course due late, h = .underWay course (some due) late := by
  unfold Env.openLimited at heq
  dsimp only at heq
  split at heq
  · cases heq
  · cases heq
    exact ⟨_, _, _, rfl⟩

theorem Env.callLimited_hold {c : Call} {limit : Nat} {h : Hold}
    (heq : (e.callLimited k c limit).2 = .hold h) :
    (∃ round, h = .opening round) ∨ ∃ course due late, h = .underWay course (some due) late := by
  unfold Env.callLimited at heq
  split at heq
  · split at heq <;> cases heq
    exact .inl ⟨_, rfl⟩
  · exact .inr (openLimited_hold heq)

/-- A request with a limit waits for something that comes. -/
theorem Env.respond_held {r : Request} {h : Hold} (hr : r.isLimited = true)
    (heq : e.respond k cancelled r = (e', .hold h)) : h.Delays r := by
  cases r with
  | publish | isCancelled | clock | announce | remember => cases heq
  | wait => cases hr
  | call c limit =>
    obtain ⟨_, rfl⟩ | ⟨_, _, _, rfl⟩ := Env.callLimited_hold (congrArg Prod.snd heq)
    · constructor
    · constructor
  | attempt c limit =>
    simp only [Env.respond] at heq
    split at heq
    · cases heq
    · have hsnd := Reply.map_eq_hold (congrArg Prod.snd heq)
      obtain ⟨_, rfl⟩ | ⟨_, _, _, rfl⟩ := Env.callLimited_hold hsnd
      · constructor
      · constructor
  | pause length =>
    simp only [Env.respond] at heq
    split at heq
    · cases heq
    · split at heq <;> cases heq
      constructor
  | compute =>
    cases heq
    constructor

/-- A request that goes on to wait has less left to wait for. -/
theorem Env.resume_held {r : Request} {h h' : Hold} (hr : h.Delays r)
    (heq : e.resume k cancelled r h = (e', .hold h')) :
    h'.Delays r ∧ h'.weight < h.weight := by
  cases hr with
  | callOpening =>
    obtain ⟨_, _, _, rfl⟩ := Env.openLimited_hold (congrArg Prod.snd heq)
    exact ⟨.callUnderWay .., Nat.lt_succ_self 1⟩
  | attemptOpening =>
    simp only [Env.resume] at heq
    split at heq
    · cases heq
    · obtain ⟨_, _, _, rfl⟩ := Env.openLimited_hold (Reply.map_eq_hold (congrArg Prod.snd heq))
      exact ⟨.attemptUnderWay .., Nat.lt_succ_self 1⟩
  | attemptUnderWay =>
    simp only [Env.resume] at heq
    split at heq <;> cases heq
  | callUnderWay | pausing | computing => cases heq

/-- **Once its time has come, a program that waits can go on**, unless it computes. -/
theorem Wait.isNow_of_patience {w : Wait α} (hw : w.hold.Delays w.request)
    (htime : w.hold.patience ≤ e.now) (hround : w.hold.patience ≤ e.round)
    (hlull : w.prospect cancelled e ≠ .lull) : (w.prospect cancelled e).isNow = true := by
  obtain ⟨sequence, r, h, next⟩ := w
  unfold Wait.prospect at hlull ⊢
  split
  · rfl
  · rename_i hcancelled
    rw [if_neg hcancelled] at hlull
    cases hw with
    | callOpening | attemptOpening =>
      dsimp only [Hold.patience] at hround ⊢
      rw [if_pos (by omega)]
      rfl
    | callUnderWay | attemptUnderWay | pausing =>
      dsimp only [Hold.patience] at htime ⊢
      rw [Prospect.ofTime, if_pos htime]
      rfl
    | computing =>
      dsimp only at hlull ⊢
      split
      · rfl
      · rename_i hquiet
        exact absurd (if_neg hquiet) hlull

/-! ## Programs that wait -/

/-- A program that waits does so at most a number of times before it is done. -/
inductive Wait.Lasts {α : Type} (Q : α → Prop) : Nat → Wait α → Prop
  | intro {n : Nat} {w : Wait α} (held : w.hold.Delays w.request)
    (hnext : ∀ a, (w.next a).Within Q n) : Lasts Q (2 * n + w.hold.weight) w

/-- A program after some progress waits at most a number of times before it is done. -/
inductive Progress.Lasts {α : Type} (Q : α → Prop) (n : Nat) : Progress α → Prop
  | finished {a : α} (ha : Q a) : Lasts Q n (.finished a)
  | waiting {m : Nat} {w : Wait α} (hle : m ≤ n) (hw : w.Lasts Q m) : Lasts Q n (.waiting w)

/-- For each of its requests a program waits at most twice. -/
theorem advance_lasts {Q : α → Prop} {n : Nat} {q : Program α} {progress : Progress α}
    (hq : q.Within Q n) (heq : advance k cancelled e q = (e', progress)) :
    progress.Lasts Q (2 * n) := by
  induction hq generalizing e with
  | done ha =>
    cases heq
    exact .finished ha
  | @ask n r next limited hnext ih =>
    unfold advance at heq
    cases hres : e.respond k cancelled r with
    | mk e₁ reply =>
      rw [hres] at heq
      cases reply with
      | answer a =>
        cases ih a heq with
        | finished ha => exact .finished ha
        | waiting hle hw => exact .waiting (by omega) hw
      | hold h =>
        cases heq
        have := h.weight_le
        exact .waiting (by dsimp only; omega) (.intro (Env.respond_held limited hres) hnext)

/-- **A program that goes on has less left to wait for.** -/
theorem Wait.resume_lasts {Q : α → Prop} {n : Nat} {w : Wait α} {progress : Progress α}
    (hw : w.Lasts Q n) (heq : w.resume k cancelled e = (e', progress)) :
    ((w.prospect cancelled e).isNow = false ∧ e' = e ∧ progress = .waiting w) ∨
      ∃ m < n, progress.Lasts Q m := by
  unfold Wait.resume at heq
  split at heq
  · right
    obtain @⟨n, _, held, hnext⟩ := hw
    have hpos := w.hold.weight_pos
    cases hres : e.resume k cancelled w.request w.hold with
    | mk e₁ reply =>
      rw [hres] at heq
      cases reply with
      | answer a => exact ⟨2 * n, by omega, advance_lasts (hnext a) heq⟩
      | hold h =>
        cases heq
        obtain ⟨held', hlt⟩ := Env.resume_held held hres
        have hlasts : Wait.Lasts Q _ ⟨e₁.sequence, w.request, h, w.next⟩ := .intro held' hnext
        exact ⟨2 * n + h.weight, by omega, .waiting (Nat.le_refl _) hlasts⟩
  · rename_i hnot
    cases heq
    exact .inl ⟨by simpa using hnot, rfl, rfl⟩

/-! ## Jobs that wait -/

/-- The jobs of an epoch, started or not, wait at most a number of times together. -/
inductive Fetching.Lasts (p : SyncPolicy) (slots : List (Nat × Wait Fetched)) :
    Nat → Fetching → Prop
  | intro {n : Nat} {f : Fetching} (jobs_le : f.started + f.waiting.length ≤ breadth p)
    (waits : SlotsWithin (Wait.Lasts fun _ => True) n slots) :
    Lasts p slots (f.waiting.length * fetchSpan p + n) f

section

variable {s : Setup σ} {f f' : Fetching} {slots slots' : List (Nat × Wait Fetched)} {n : Nat}

/-- A job that is started waits no more often than was reckoned. -/
theorem startJobs_lasts (hf : f.Lasts s.policy slots n)
    (heq : startJobs s cancelled e f slots = (e', f', slots')) :
    f'.next? = none ∧ ∃ m ≤ n, f'.Lasts s.policy slots' m := by
  fun_induction startJobs s cancelled e f slots generalizing n with
  | case1 e f slots hnext =>
    cases heq
    exact ⟨hnext, n, Nat.le_refl n, hf⟩
  | case2 e f slots number job g hnext _ e₁ result hadvance _ ih =>
    obtain ⟨jobs_le, hslots⟩ := hf
    obtain ⟨jobs_le', hlength⟩ := Fetching.room_of_next? hnext jobs_le
    obtain ⟨hnext', m, hle, hm⟩ := ih (.intro (by
      rw [Fetching.started_finish, Fetching.waiting_finish]
      exact jobs_le') hslots) heq
    refine ⟨hnext', m, Nat.le_trans hle ?_, hm⟩
    rw [Fetching.waiting_finish, hlength, Nat.add_mul]
    omega
  | case3 e f slots number job g hnext _ e₁ w hadvance ih =>
    obtain ⟨jobs_le, hslots⟩ := hf
    obtain ⟨jobs_le', hlength⟩ := Fetching.room_of_next? hnext jobs_le
    cases advance_lasts within_fetchOne hadvance with
    | waiting hle' hw =>
      obtain ⟨hnext', m, hle, hm⟩ := ih (.intro jobs_le' (hslots.append hw)) heq
      refine ⟨hnext', m, Nat.le_trans hle ?_, hm⟩
      rw [hlength, Nat.add_mul, Nat.one_mul, fetchSpan]
      omega

/-- **Jobs that go on have less left to wait for.** -/
theorem resumeJobs_lasts (hslots : SlotsWithin (Wait.Lasts fun _ => True) n slots)
    (heq : resumeJobs s cancelled e f slots = (e', f', slots')) :
    f'.waiting = f.waiting ∧ f'.started = f.started ∧
      ((e' = e ∧ f' = f ∧ slots' = slots ∧
          ∀ slot ∈ slots, (slot.2.prospect cancelled e).isNow = false) ∨
        ∃ m < n, SlotsWithin (Wait.Lasts fun _ => True) m slots') := by
  induction hslots generalizing e f slots' with
  | nil =>
    cases heq
    exact ⟨rfl, rfl, .inl ⟨rfl, rfl, rfl, by simp⟩⟩
  | @cons n m number w slots head tail ih =>
    unfold resumeJobs at heq
    cases hresume : w.resume s.collaborators cancelled e with
    | mk e₁ progress =>
      rw [hresume] at heq
      have hlasts := Wait.resume_lasts head hresume
      cases progress with
      | finished result =>
        obtain ⟨-, -, hno⟩ | ⟨l, hl, -⟩ := hlasts
        · cases hno
        obtain ⟨hwaiting, hstarted, hrest⟩ := ih heq
        refine ⟨hwaiting, hstarted.trans (Fetching.started_finish ..), .inr ?_⟩
        obtain ⟨-, -, rfl, -⟩ | ⟨k, hk, hlast⟩ := hrest
        · exact ⟨m, by omega, tail⟩
        · exact ⟨k, by omega, hlast⟩
      | waiting w' =>
        cases hjobs : resumeJobs s cancelled e₁ f slots with
        | mk e₂ resumed =>
          obtain ⟨f₂, slots₂⟩ := resumed
          dsimp only at heq
          rw [hjobs] at heq
          cases heq
          obtain ⟨hwaiting, hstarted, hrest⟩ := ih hjobs
          refine ⟨hwaiting, hstarted, ?_⟩
          obtain ⟨hnot, rfl, hsame⟩ | ⟨l, hl, hw'⟩ := hlasts
          · cases hsame
            obtain ⟨rfl, rfl, rfl, hnone⟩ | ⟨k, hk, hlast⟩ := hrest
            · exact .inl ⟨rfl, rfl, rfl, List.forall_mem_cons.2 ⟨hnot, hnone⟩⟩
            · exact .inr ⟨n + 1 + k, by omega, .cons head hlast⟩
          · cases hw' with
            | @waiting j _ hle hw' =>
              obtain ⟨-, -, rfl, -⟩ | ⟨k, hk, hlast⟩ := hrest
              · exact .inr ⟨j + 1 + m, by omega, .cons hw' tail⟩
              · exact .inr ⟨j + 1 + k, by omega, .cons hw' hlast⟩

end

/-! ## Epochs that wait -/

/-- An epoch under way waits at most a number of times before it is over. Of its jobs, every one that
can be started has been. -/
inductive Stage.Lasts (p : SyncPolicy) : Nat → Stage → Prop
  | checking {n : Nat} {w : Wait Checked} (hw : w.Lasts (Checked.Feasible p) n) :
    Lasts p (n + (breadth p * fetchSpan p + (2 * finishingSpan p + 2))) (.checking w)
  | fetching {n : Nat} {epoch : Epoch} {f : Fetching} {slots : List (Nat × Wait Fetched)}
    (kinds_le : epoch.kinds.length ≤ 2) (hf : f.Lasts p slots n) (started : f.next? = none)
    (unfinished : f.isOver = false) :
    Lasts p (n + (2 * finishingSpan p + 1)) (.fetching epoch f slots)
  | writing {n : Nat} {w : Wait Epoch} (hw : w.Lasts (fun _ => True) n) : Lasts p n (.writing w)

/-- An epoch after some progress waits at most a number of times before it is over. -/
inductive Standing.Lasts (p : SyncPolicy) (n : Nat) : Standing → Prop
  | ended (epoch : Epoch) : Lasts p n (.ended epoch)
  | under {m : Nat} {stage : Stage} (hle : m ≤ n) (hs : stage.Lasts p m) : Lasts p n (.under stage)

section

variable {s : Setup σ} {trigger : Trigger} {standing : Standing} {n : Nat}

theorem Standing.Lasts.of_le {m : Nat} (hs : standing.Lasts s.policy m) (hle : m ≤ n) :
    standing.Lasts s.policy n := by
  cases hs with
  | ended => exact .ended _
  | under hle' hs => exact .under (Nat.le_trans hle' hle) hs

theorem runConcluding_lasts {progress : Progress Epoch}
    (hp : progress.Lasts (fun _ => True) n) (heq : runConcluding (e, progress) = (e', standing)) :
    standing.Lasts s.policy n := by
  cases hp with
  | finished =>
    cases heq
    exact .ended _
  | waiting hle hw =>
    cases heq
    exact .under hle (.writing hw)

theorem runWriting_lasts {q : Program Epoch} (hq : q.Within (fun _ => True) n)
    (heq : runWriting s cancelled e q = (e', standing)) : standing.Lasts s.policy (2 * n) :=
  runConcluding_lasts (advance_lasts hq rfl) heq

theorem runFetching_lasts {epoch : Epoch} {f : Fetching} {slots : List (Nat × Wait Fetched)}
    (kinds_le : epoch.kinds.length ≤ 2) (hf : f.Lasts s.policy slots n)
    (heq : runFetching s cancelled e epoch f slots = (e', standing)) :
    standing.Lasts s.policy (n + (2 * finishingSpan s.policy + 1)) := by
  unfold runFetching at heq
  cases hstart : startJobs s cancelled e f slots with
  | mk e₁ started =>
  obtain ⟨f₁, slots₁⟩ := started
  rw [hstart] at heq
  obtain ⟨hnext, m, hle, hf₁⟩ := startJobs_lasts hf hstart
  dsimp only at heq
  split at heq
  · obtain ⟨jobs_le, -⟩ := hf₁
    have hfetched : f₁.taken.length ≤ breadth s.policy := by
      rw [Fetching.started] at jobs_le
      omega
    exact (runWriting_lasts (within_finishing kinds_le hfetched) heq).of_le (by omega)
  · rename_i hover
    cases heq
    exact .under (by omega) (.fetching kinds_le hf₁ hnext (by simpa using hover))

theorem runChecked_lasts {progress : Progress Checked}
    (hp : progress.Lasts (Checked.Feasible s.policy) n)
    (heq : runChecked s cancelled (e, progress) = (e', standing)) :
    standing.Lasts s.policy
      (n + (breadth s.policy * fetchSpan s.policy + (2 * finishingSpan s.policy + 2))) := by
  cases hp with
  | waiting hle hw =>
    cases heq
    exact .under (by omega) (.checking hw)
  | finished ha =>
    cases ha with
    | stopped epoch =>
      exact (runWriting_lasts within_concluding heq).of_le (by unfold finishingSpan; omega)
    | @ready epoch jobs kinds_le jobs_le =>
      have hf : (Fetching.create s.policy.maxConcurrentFetches jobs).Lasts s.policy [] _ :=
        .intro (by simpa [Fetching.create, Fetching.started] using jobs_le) .nil
      have hspan := Nat.mul_le_mul_right (fetchSpan s.policy) jobs_le
      exact (runFetching_lasts kinds_le hf heq).of_le (by simp only [Fetching.create]; omega)

/-- **An epoch that goes on has less left to wait for.** -/
theorem Stage.resume_lasts {stage : Stage} (hs : stage.Lasts s.policy n)
    (heq : stage.resume s cancelled e = (e', standing)) :
    (e' = e ∧ standing = .under stage ∧
        ∀ prospect ∈ stage.prospects cancelled e, prospect.isNow = false) ∨
      ∃ m < n, standing.Lasts s.policy m := by
  cases hs with
  | @checking n w hw =>
    cases hresume : w.resume s.collaborators cancelled e with
    | mk e₁ progress =>
      simp only [Stage.resume, hresume] at heq
      obtain ⟨hnot, rfl, rfl⟩ | ⟨m, hm, hp⟩ := Wait.resume_lasts hw hresume
      · cases heq
        exact .inl ⟨rfl, rfl, by simpa [Stage.prospects] using hnot⟩
      · exact .inr ⟨_, by omega, runChecked_lasts hp heq⟩
  | @fetching n epoch f slots kinds_le hf started unfinished =>
    obtain ⟨jobs_le, hslots⟩ := hf
    cases hresume : resumeJobs s cancelled e f slots with
    | mk e₁ resumed =>
      obtain ⟨f₁, slots₁⟩ := resumed
      simp only [Stage.resume, hresume] at heq
      obtain ⟨hwaiting, hstarted, ⟨rfl, rfl, rfl, hnone⟩ | ⟨m, hm, hlast⟩⟩ :=
        resumeJobs_lasts hslots hresume
      · -- Nothing has happened, so no job can be started now that could not be before.
        have hstart : startJobs s cancelled e₁ f₁ slots₁ = (e₁, f₁, slots₁) := by
          unfold startJobs
          split
          · rfl
          · rename_i hnext
            rw [started] at hnext
            cases hnext
        simp only [runFetching, hstart, unfinished, Bool.false_eq_true, if_false] at heq
        cases heq
        exact .inl ⟨rfl, rfl, List.forall_mem_map.2 hnone⟩
      · have hf₁ : f₁.Lasts s.policy slots₁ _ := .intro (by rw [hwaiting, hstarted]; exact jobs_le) hlast
        refine .inr ⟨_, ?_, runFetching_lasts kinds_le hf₁ heq⟩
        rw [hwaiting]
        omega
  | @writing n w hw =>
    cases hresume : w.resume s.collaborators cancelled e with
    | mk e₁ progress =>
      simp only [Stage.resume, hresume] at heq
      obtain ⟨hnot, rfl, rfl⟩ | ⟨m, hm, hp⟩ := Wait.resume_lasts hw hresume
      · cases heq
        exact .inl ⟨rfl, rfl, by simpa [Stage.prospects] using hnot⟩
      · exact .inr ⟨m, hm, runConcluding_lasts hp heq⟩

/-- **An epoch on the clock has only so much left to wait for.** -/
theorem OnClock.lasts (clock : OnClock s trigger cancelled standing) :
    ∃ n, standing.Lasts s.policy n := by
  induction clock with
  | begun begin_eq =>
    exact ⟨_, runChecked_lasts (advance_lasts within_checking rfl) begin_eq⟩
  | resumed _ _ resume_eq ih =>
    obtain ⟨n, hs⟩ := ih
    cases hs with
    | under _ hs =>
      obtain ⟨-, rfl, -⟩ | ⟨m, -, hm⟩ := Stage.resume_lasts hs resume_eq
      · exact ⟨_, .under (Nat.le_refl _) hs⟩
      · exact ⟨m, hm⟩

/-- The time and the round after which an epoch can go on. -/
def Stage.patience : Stage → Nat
  | checking w => w.hold.patience
  | fetching _ _ slots => slots.head?.elim 0 fun slot => slot.2.hold.patience
  | writing w => w.hold.patience

/-- **An epoch on the clock can go on once its time has come**, unless it computes. -/
theorem OnClock.exists_isNow {stage : Stage} (clock : OnClock s trigger cancelled (.under stage))
    {later : Bool} (htime : stage.patience ≤ e.now) (hround : stage.patience ≤ e.round)
    (hlull : .lull ∉ stage.prospects later e) :
    ∃ prospect ∈ stage.prospects later e, prospect.isNow = true := by
  have hwait : ∀ {α : Type} {Q : α → Prop} {n : Nat} {w : Wait α}, w.Lasts Q n →
      w.hold.patience ≤ e.now → w.hold.patience ≤ e.round →
      w.prospect later e ∈ stage.prospects later e →
      ∃ prospect ∈ stage.prospects later e, prospect.isNow = true := by
    rintro α Q n w ⟨held, -⟩ htime hround hmem
    exact ⟨_, hmem, Wait.isNow_of_patience held htime hround fun heq => hlull (heq ▸ hmem)⟩
  obtain ⟨n, hs⟩ := clock.lasts
  cases hs with
  | under _ hs =>
    cases hs with
    | checking hw => exact hwait hw htime hround List.mem_cons_self
    | writing hw => exact hwait hw htime hround List.mem_cons_self
    | @fetching _ epoch f slots _ hf started unfinished =>
      obtain ⟨-, hslots⟩ := hf
      cases hslots with
      | cons hw _ => exact hwait hw htime hround List.mem_cons_self
      | nil =>
        -- Some job is always under way, since all that can be started have been.
        obtain ⟨t, run, -⟩ := clock.run
        obtain ⟨_, _, _, hnext⟩ := Run.exists_next run unfinished
        rw [started] at hnext
        cases hnext

/-- **An epoch that is gone on with when its time has come has less left to wait for.** -/
theorem OnClock.resume_lasts {stage : Stage} (clock : OnClock s trigger cancelled (.under stage))
    {later : Bool} (htime : stage.patience ≤ e.now) (hround : stage.patience ≤ e.round)
    (hlull : .lull ∉ stage.prospects later e) (hs : stage.Lasts s.policy n)
    (heq : stage.resume s later e = (e', standing)) : ∃ m < n, standing.Lasts s.policy m := by
  obtain ⟨prospect, hmem, hnow⟩ := clock.exists_isNow htime hround hlull
  obtain ⟨-, -, hnone⟩ | hless := Stage.resume_lasts hs heq
  · rw [hnone prospect hmem] at hnow
    cases hnow
  · exact hless

end

end ContentSync.Engine
