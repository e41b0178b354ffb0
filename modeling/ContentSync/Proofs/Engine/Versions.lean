import ContentSync.Proofs.Engine.CommitSafety
import ContentSync.Proofs.Engine.LookupPath
import ContentSync.Proofs.Engine.World

/-!
# What becomes of the stored versions

* `Outside.versions_eq` — what happens outside of epochs leaves the versions alone;
* `Run.not_brought_of_versions` — an epoch is told the versions before it commits any;
* `Tracked` / `Follows.tracked` — at any moment of an epoch the stored versions are those it has
  committed, and from before it otherwise.
-/

set_option autoImplicit false

namespace ContentSync

theorem StoredVersions.eq_of_get {a b : StoredVersions} (h : ∀ kind, a.get kind = b.get kind) :
    a = b := by
  obtain ⟨g, l⟩ := a
  obtain ⟨g', l'⟩ := b
  obtain rfl : g = g' := h .gameData
  obtain rfl : l = l' := h .localization
  rfl

namespace Engine

open Program

variable {p : SyncPolicy} {trigger : Trigger} {t u : List Moment} {s : Situation}
  {start w w' : World}

/-- What an epoch has to do with the stored versions. -/
structure Tracked (start : World) (t : List Moment) (w : World) : Prop where
  /-- A kind keeps its version until it is committed. -/
  unchanged : ∀ kind, (∀ v, ¬ Brought t (.commit kind v) ()) →
    w.versions.get kind = start.versions.get kind
  committed : ∀ kind v, Brought t (.commit kind v) () → w.versions.get kind = some v
  /-- The epoch was told the versions from before it. -/
  told : ∀ stored, Brought t .versions stored → stored = start.versions

/-! ## Outside of epochs -/

theorem Outside.versions_eq (step : Outside w w') : w'.versions = w.versions := by
  cases step with
  | tick => rfl
  | purge => rfl
  | @lookup lifetime raw h e asks answers =>
    obtain ⟨code, heq | heq | ⟨record, heq⟩⟩ := asks_lookup asks <;>
    · cases hdone : e.done? with
      | none => simp [World.after, hdone]
      | some c =>
        obtain ⟨x, hb⟩ := Exchange.exists_of_done? hdone
        cases hb <;> cases heq
        simp [World.after, hdone, World.apply]

theorem Outside.now_le (step : Outside w w') : w.now ≤ w'.now := by
  cases step with
  | tick length => exact Nat.le_add_right _ _
  | purge => exact Nat.le_refl _
  | lookup => exact Nat.le_of_eq World.now_after.symm

theorem Outside.log_eq (step : Outside w w') : ∃ log, w'.log = log ++ w.log := by
  cases step with
  | tick => exact ⟨[], rfl⟩
  | purge => exact ⟨[], rfl⟩
  | lookup => exact ⟨[_], rfl⟩

/-! ## Commits -/

section

variable {worker : Worker} {e : Exchange}

/-- When a kind is committed, no commit of it has been answered yet. -/
theorem Run.not_brought_of_commit (run : Run p trigger (t ++ .answered worker e :: u) s)
    {kind : DataKind} {v : Version} (hb : e.Brings (.commit kind v) ()) (v' : Version) :
    ¬ Brought t (.commit kind v') () := by
  rintro ⟨worker', e', he, hb'⟩
  obtain ⟨s₁, run₁, -⟩ := run.split
  cases worker' with
  | job n =>
    obtain ⟨_, _, heq⟩ := run₁.fetch_of_answered he hb'.call?
    cases heq
  | epoch =>
    obtain hcheck | ⟨_, hrequest⟩ | hends := run₁.answered_epoch (mem_exchanges.2 he)
    · cases hb' <;> exact hcheck.elim
    · cases hb' with
      | call limit =>
        exact run.commit_first (.answered e.answer) hb.call? (mem_exchanges.2 he) rfl
      | wait | attempt =>
        obtain heq | heq | ⟨_, -, hconcerns⟩ := hrequest
        · cases heq
        · cases heq
        · exact hconcerns.elim
    · cases hb' <;> cases hends

/-- When the versions are told, nothing has been committed yet. -/
theorem Run.not_brought_of_versions (run : Run p trigger (t ++ .answered worker e :: u) s)
    {stored : StoredVersions} (hb : e.Brings .versions stored) (kind : DataKind) (v : Version) :
    ¬ Brought t (.commit kind v) () := by
  rintro ⟨worker', e', he, hb'⟩
  obtain ⟨s₁, run₁, -⟩ := run.split
  cases worker' with
  | job n =>
    obtain ⟨_, _, heq⟩ := run₁.fetch_of_answered he hb'.call?
    cases heq
  | epoch =>
    cases worker with
    | job n =>
      obtain ⟨_, _, heq⟩ := run.fetch_of_answered (n := n) (e := e) (by simp) hb.call?
      cases heq
    | epoch =>
      cases run.asked_epoch (.answered e.answer) with
      | checking asks =>
        obtain ⟨next, hpath⟩ := asks
        obtain ⟨_, hasks⟩ := Path.asks_of_mem hpath (mem_exchanges.2 he)
        cases hb' <;> exact (asks_checking hasks).elim
      | concluding ends => cases hb <;> cases ends
      | writing writes asks =>
        obtain heq | heq | ⟨_, -, hconcerns⟩ := asks_writing_request asks
        · cases hb <;> cases heq
        · cases hb <;> cases heq
        · cases hb <;> exact hconcerns.elim

theorem versions_after_of_commit {kind : DataKind} {v : Version}
    (hb : e.Brings (.commit kind v) ()) :
    (w.after e).versions = w.versions.set kind v := by
  simp [World.after, hb.done?, World.apply]

theorem versions_after_of_ne {kind : DataKind} (hne : ∀ v, ¬ e.Brings (.commit kind v) ()) :
    (w.after e).versions.get kind = w.versions.get kind := by
  cases hdone : e.done? with
  | none => simp [World.after, hdone]
  | some c =>
    obtain ⟨x, hb⟩ := Exchange.exists_of_done? hdone
    cases c with
    | commit k v =>
      have hk : kind ≠ k := by
        rintro rfl
        exact hne v hb
      simp [World.after, hdone, World.apply, StoredVersions.get_set_of_ne _ hk]
    | metadata | fetch | player | versions | read | exist | write | invalidate =>
      simp [World.after, hdone, World.apply]

end

/-! ## The versions during an epoch -/

theorem Tracked.outside (ht : Tracked start t w) (step : Outside w w') : Tracked start t w' where
  unchanged kind hk := by
    rw [step.versions_eq]
    exact ht.unchanged kind hk
  committed kind v hb := by
    rw [step.versions_eq]
    exact ht.committed kind v hb
  told := ht.told

/-- **An answer keeps the versions tracked.** -/
theorem Tracked.answered {worker : Worker} {e : Exchange} (ht : Tracked start t w)
    (run : Run p trigger (t ++ .answered worker e :: u) s) (ha : w.Answers e) :
    Tracked start (t ++ [.answered worker e]) (w.after e) where
  unchanged := by
    intro kind hk
    rw [versions_after_of_ne fun v hb => hk v (brought_append_answered.2 (.inr hb))]
    exact ht.unchanged kind fun v hb => hk v (brought_append_answered.2 (.inl hb))
  committed := by
    intro kind v hb
    by_cases hcommit : ∃ v', e.Brings (.commit kind v') ()
    · obtain ⟨v', hb'⟩ := hcommit
      obtain hb | hb := brought_append_answered.1 hb
      · exact absurd hb (run.not_brought_of_commit hb' v)
      · rw [versions_after_of_commit hb, StoredVersions.get_set_self]
    · rw [versions_after_of_ne fun v' hb => hcommit ⟨v', hb⟩]
      exact ht.committed kind v
        ((brought_append_answered.1 hb).resolve_right fun hb => hcommit ⟨v, hb⟩)
  told := by
    intro stored hb
    obtain hb | hb := brought_append_answered.1 hb
    · exact ht.told stored hb
    · rw [show stored = w.versions from ha .versions stored hb]
      exact StoredVersions.eq_of_get fun kind =>
        ht.unchanged kind (run.not_brought_of_versions hb kind)

theorem Tracked.other {m : Moment} (ht : Tracked start t w) (hm : ∀ w e, m ≠ .answered w e) :
    Tracked start (t ++ [m]) w where
  unchanged kind hk := ht.unchanged kind fun v hb => hk v ((brought_append_other hm).2 hb)
  committed kind v hb := ht.committed kind v ((brought_append_other hm).1 hb)
  told stored hb := ht.told stored ((brought_append_other hm).1 hb)

theorem tracked_start (start : World) : Tracked start [] start where
  unchanged := fun _ _ => rfl
  committed := by
    rintro kind v ⟨_, _, he, -⟩
    cases he
  told := by
    rintro stored ⟨_, _, he, -⟩
    cases he

/-- **The stored versions are tracked throughout an epoch.** -/
theorem Follows.tracked (follows : Follows start t w) (run : Run p trigger (t ++ u) s) :
    Tracked start t w := by
  induction follows generalizing u with
  | start => exact tracked_start start
  | outside _ step ih => exact (ih run).outside step
  | answered _ answers ih =>
    rw [List.append_assoc, List.singleton_append] at run
    exact (ih run).answered run answers
  | other _ silent ih =>
    rw [List.append_assoc] at run
    exact (ih run).other silent

end Engine

end ContentSync
