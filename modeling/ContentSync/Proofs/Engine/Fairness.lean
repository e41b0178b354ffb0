import ContentSync.Proofs.Engine.Traffic

/-!
# Fair schedules

An epoch that has been let in comes to its end, if it has its turn again and again while time goes on.
There is such a schedule for everything that can have happened before.

* `Schedule` — what happens, for ever;
* `Scene.Ripe`, `Schedule.Fair` — every epoch under way has its turn again and again, at later and
  later times;
* `Scene.Step.admits` — an epoch stays where it is until it has its turn;
* `Schedule.Fair.exists_ended` — every epoch that has been let in comes to its end;
* `Scene.Reached.exists_fair` — there is a fair schedule from every scene.
-/

set_option autoImplicit false

namespace ContentSync.Engine

variable {σ : Type} {s : Setup σ}

/-! ## Schedules -/

/-- What happens, for ever. -/
structure Schedule (s : Setup σ) where
  scene : Nat → Scene σ
  deed : Nat → Deed
  step : ∀ n, (scene n).Step s (deed n) (scene (n + 1))

/-- So much time has passed, in so many rounds, and no computation of an epoch goes on. -/
structure Scene.Ripe (c : Scene σ) (time : Nat) (stage : Stage) : Prop where
  now : time ≤ c.env.now
  round : time ≤ c.env.round
  computed : .lull ∉ stage.prospects c.stopped c.env

/-- Every epoch under way has its turn again and again. In between time has passed, and its
computations have ended. -/
def Schedule.Fair (h : Schedule s) : Prop :=
  ∀ i time, ∃ n, time ≤ n ∧ ∀ stage, (h.scene n).Admits i (.under stage) →
    h.deed n = .turn i ∧ (h.scene n).Ripe time stage

theorem Schedule.reached (h : Schedule s) (hstart : (h.scene 0).Reached s) (n : Nat) :
    (h.scene n).Reached s := by
  induction n with
  | zero => exact hstart
  | succ n ih => exact ih.step (h.step n)

/-! ## Every epoch comes to its end -/

namespace Scene

variable {c c' : Scene σ} {deed : Deed} {i : Nat} {stage : Stage}

/-- **An epoch stays where it is until it has its turn.** -/
theorem Step.admits (hs : c.Step s deed c') (h : c.Admits i (.under stage)) :
    (deed ≠ .turn i ∧ c'.Admits i (.under stage)) ∨
      ∃ e standing, stage.resume s.recorded c.stopped c.env = (e, standing) ∧
        c'.Admits i standing := by
  cases hs with
  | elsewhere => exact .inl ⟨by simp, h⟩
  | shutdown => exact .inl ⟨by simp, h⟩
  | arrival entry =>
    refine .inl ⟨by simp, ?_⟩
    unfold arrive
    split
    · exact (List.getElem?_append_left h.lt_length).trans h
    · exact (List.getElem?_append_left h.lt_length).trans h
  | turn n =>
    by_cases hn : n = i
    · subst hn
      cases hresume : stage.resume s.recorded c.stopped c.env with
      | mk e standing =>
        rw [turn_of_admits h hresume]
        exact .inr ⟨e, standing, rfl, List.getElem?_set_self h.lt_length⟩
    · refine .inl ⟨fun heq => hn (Deed.turn.inj heq), ?_⟩
      unfold Scene.turn
      split
      · exact (List.getElem?_set_ne hn).trans h
      · exact h

/-- What happens next leaves an epoch where it is, or brings it nearer to its end. -/
theorem Step.admits_lasts {left : Nat} (hs : c.Step s deed c') (h : c.Admits i (.under stage))
    (hl : stage.Lasts s.policy left) :
    c'.Admits i (.under stage) ∨
      ∃ l < left, ∃ standing, c'.Admits i standing ∧ standing.Lasts s.policy l := by
  obtain ⟨-, h'⟩ | ⟨e, standing, hresume, h'⟩ := hs.admits h
  · exact .inl h'
  · obtain ⟨-, rfl, -⟩ | ⟨l, hlt, hl'⟩ := Stage.resume_lasts (s := s.recorded) hl hresume
    · exact .inl h'
    · exact .inr ⟨l, hlt, standing, h', hl'⟩

/-- An epoch that has its turn when its time has come is brought nearer to its end. -/
theorem Step.turn_lasts {left time : Nat} (hs : c.Step s (.turn i) c') (hc : c.Orderly s)
    (h : c.Admits i (.under stage)) (ripe : c.Ripe time stage) (htime : stage.patience ≤ time)
    (hl : stage.Lasts s.policy left) :
    ∃ l < left, ∃ standing, c'.Admits i standing ∧ standing.Lasts s.policy l := by
  obtain ⟨hne, -⟩ | ⟨e, standing, hresume, h'⟩ := hs.admits h
  · exact absurd rfl hne
  · obtain ⟨trigger, cancelled, clock, -⟩ := hc.clock i _ h
    obtain ⟨l, hlt, hl'⟩ := clock.resume_lasts (Nat.le_trans htime ripe.now)
      (Nat.le_trans htime ripe.round) ripe.computed hl hresume
    exact ⟨l, hlt, standing, h', hl'⟩

end Scene

/-- **Every epoch that has been let in comes to its end** under a fair schedule. -/
theorem Schedule.Fair.exists_ended {h : Schedule s} (fair : h.Fair)
    (hstart : (h.scene 0).Reached s) {start i : Nat} {standing : Standing}
    (hadmits : (h.scene start).Admits i standing) :
    ∃ n epoch, (h.scene n).Admits i (.ended epoch) := by
  obtain ⟨_, _, clock, -⟩ := (h.reached hstart start).orderly.clock i standing hadmits
  obtain ⟨left, hl⟩ := clock.lasts
  clear clock
  induction left using Nat.strongRecOn generalizing start standing with
  | ind left ih =>
    cases hl with
    | ended epoch => exact ⟨start, epoch, hadmits⟩
    | @under m stage hle hl =>
      obtain ⟨n, hn, hfair⟩ := fair i (max start stage.patience)
      -- Until the turn at `n` the epoch stays where it is, unless it comes nearer to its end before.
      have hstays : ∀ k, (h.scene (start + k)).Admits i (.under stage) ∨
          ∃ l < m, ∃ n standing, (h.scene n).Admits i standing ∧
            standing.Lasts s.policy l := by
        intro k
        induction k with
        | zero => exact .inl hadmits
        | succ k ihk =>
          obtain hadmits' | hless := ihk
          · obtain hsame | ⟨l, hlt, standing, hnext⟩ := (h.step _).admits_lasts hadmits' hl
            · exact .inl hsame
            · exact .inr ⟨l, hlt, _, standing, hnext⟩
          · exact .inr hless
      have hless : ∃ l < m, ∃ n standing, (h.scene n).Admits i standing ∧
          standing.Lasts s.policy l := by
        obtain hadmits' | hless := hstays (n - start)
        · rw [Nat.add_sub_cancel' (by omega)] at hadmits'
          obtain ⟨hdeed, ripe⟩ := hfair stage hadmits'
          obtain ⟨l, hlt, standing, hnext⟩ := (hdeed ▸ h.step n).turn_lasts
            (h.reached hstart n).orderly hadmits' ripe (Nat.le_max_right ..) hl
          exact ⟨l, hlt, _, standing, hnext⟩
        · exact hless
      obtain ⟨l, hlt, _, standing, hnext, hl'⟩ := hless
      exact ih l (Nat.lt_of_lt_of_le hlt hle) hnext hl'

/-! ## There are fair schedules -/

/-- An epoch is under way for a trigger. -/
def Visit.isUnder : Visit → Bool
  | begun (.ok standing) => standing.isUnder
  | _ => false

theorem Visit.exists_of_isUnder {visit : Visit} (h : visit.isUnder = true) :
    ∃ stage, visit = .begun (.ok (.under stage)) := by
  unfold isUnder at h
  split at h
  · rename_i standing
    cases standing with
    | ended => cases h
    | under stage => exact ⟨stage, rfl⟩
  · cases h

theorem Prospect.ofTime_ne_lull (now due sequence : Nat) : ofTime now due sequence ≠ .lull := by
  unfold ofTime
  split <;> simp

/-- When computations have ended nothing waits for one. -/
theorem Stage.lull_not_mem_prospects {e : Env σ} (hquiet : e.quiet = true) (stage : Stage)
    (cancelled : Bool) : .lull ∉ stage.prospects cancelled e := by
  have hwait : ∀ {α : Type} (w : Wait α), w.prospect cancelled e ≠ .lull := by
    intro α w
    unfold Wait.prospect
    split
    · simp
    · split
      · split <;> simp
      · exact Prospect.ofTime_ne_lull _ _ _
      · simp
      · exact Prospect.ofTime_ne_lull _ _ _
      · simp
  cases stage with
  | checking w => simpa [prospects] using (hwait w).symm
  | writing w => simpa [prospects] using (hwait w).symm
  | fetching epoch f slots =>
    rw [prospects, List.mem_map]
    rintro ⟨slot, -, heq⟩
    exact hwait slot.2 heq

namespace Scene

/-- The number of the trigger whose epoch is under way, if one is. -/
def current (c : Scene σ) : Nat := c.visits.findIdx Visit.isUnder

theorem Orderly.current_eq {c : Scene σ} (hc : c.Orderly s) {i : Nat} {stage : Stage}
    (h : c.Admits i (.under stage)) : c.current = i := by
  have hlt : c.visits.findIdx Visit.isUnder < c.visits.length :=
    List.findIdx_lt_length_of_exists ⟨_, List.mem_of_getElem? h, rfl⟩
  obtain ⟨stage', heq⟩ := Visit.exists_of_isUnder (List.findIdx_getElem (w := hlt))
  exact hc.unique _ i stage' stage (List.getElem?_eq_some_iff.2 ⟨hlt, heq⟩) h

/-- Time passes, up to a number at least, and computations end. -/
def rest (c : Scene σ) (time : Nat) : Scene σ :=
  { c with
    env := { c.env with now := max c.env.now time, round := max c.env.round time, quiet := true } }

/-- The scenes to which one leads when time passes and the epoch under way has its turn, by turns. -/
def onward (s : Setup σ) (c : Scene σ) : Nat → Scene σ
  | 0 => c
  | n + 1 =>
    if n % 2 = 0 then (onward s c n).rest n else (onward s c n).turn s (onward s c n).current

/-- **There is a fair schedule from every scene.** -/
theorem Reached.exists_fair {c : Scene σ} (reached : c.Reached s) :
    ∃ h : Schedule s, h.scene 0 = c ∧ h.Fair := by
  let h : Schedule s := {
    scene := c.onward s
    deed := fun n => if n % 2 = 0 then .elsewhere else .turn (c.onward s n).current
    step := by
      intro n
      rw [onward]
      split
      · exact .elsewhere _ rfl rfl
      · exact .turn _ }
  refine ⟨h, rfl, fun i time => ⟨2 * time + 1, by omega, fun stage hadmits => ?_⟩⟩
  have hdeed : h.deed (2 * time + 1) = .turn (h.scene (2 * time + 1)).current :=
    if_neg (by omega)
  have hrest : h.scene (2 * time + 1) = (h.scene (2 * time)).rest (2 * time) :=
    if_pos (by omega)
  refine ⟨?_, ?_⟩
  · rw [hdeed, (h.reached reached _).orderly.current_eq hadmits]
  · rw [hrest]
    refine ⟨?_, ?_, Stage.lull_not_mem_prospects rfl _ _⟩
    · exact Nat.le_trans (by omega) (Nat.le_max_right _ (2 * time))
    · exact Nat.le_trans (by omega) (Nat.le_max_right _ (2 * time))

end Scene

end ContentSync.Engine
