import ContentSync.Proofs.Engine.Success

/-!
# A second epoch changes nothing

After an epoch that has succeeded, another one with the same versions finds nothing to do, as long as
what the first one has found or written lives.

* `World.Current` / `Run.current_of_success` — after a success the versions are committed and their
  targets cached;
* `Synchronized` — the stores are as a successful epoch has left them;
* `Run.idempotent` — the next epoch is unchanged.
-/

set_option autoImplicit false

namespace ContentSync

namespace Engine

open Program

variable {p : SyncPolicy} {trigger : Trigger} {t u : List Moment} {s : Situation} {epoch : Epoch}
  {m : Metadata} {stored : StoredVersions} {start w w' : World} {later : Instant}

/-! ## What a success leaves behind -/

/-- Some versions are committed, and until later their targets are cached. -/
structure World.Current (p : SyncPolicy) (m : Metadata) (later : Instant) (w : World) : Prop where
  distinct : w.cache.Distinct
  versions : ∀ kind, w.versions.get kind = some (m.latest kind)
  contains : ∀ kind, ∀ target ∈ p.targets kind,
    w.cache.contains later (target.key (m.latest kind)) = true

/-- What an epoch has found or written lives until later. Nothing is done to an entry before it is
found, so it is the one from before the epoch. -/
structure Lasting (start w : World) (t : List Moment) (later : Instant) : Prop where
  now_le : w.now ≤ later
  found : ∀ key, Brought t (.exist key) true → start.cache.contains later key = true
  written : ∀ d ∈ World.since start w, ∀ key payload lifetime,
    d.2.Brings (.write key payload lifetime) () → later - d.1 < lifetime.nanoseconds

/-- An epoch removes no entry of the advertised versions. -/
theorem Run.not_removed (run : Run p trigger t (.ended epoch)) (hm : Brought t .metadata m)
    {kind : DataKind} {target : FetchTarget} (ht : target ∈ p.targets kind) :
    ¬ Brought t (.invalidate (target.key (m.latest kind))) () := by
  intro hb
  obtain ⟨r, hr, x, -, old, hkey, hkind, -, -, -, hne⟩ :=
    run.footprint_of_calls.removed _ (run.mem_calls_of_brought hb rfl)
  obtain ⟨rfl, rfl⟩ := FetchTarget.key_inj hkey
  obtain ⟨m', _, hadvertised, -, hnew, -⟩ := run.reports_eq.2 r hr
  obtain rfl := (hadvertised m).1 hm
  rw [hnew, ← hkind, SyncPolicy.kind_of_mem_targets ht] at hne
  exact hne rfl

/-- **After a success the advertised versions are current**, until something expires. -/
theorem Run.current_of_success (run : Run p trigger t (.ended epoch))
    (success : epoch.outcome = some .success) (hm : Brought t .metadata m) (hl : LooksWell t)
    (follows : Follows start t w) (hd : start.cache.Distinct) (lasting : Lasting start w t later) :
    w.Current p m later := by
  obtain ⟨m', stored, sels, achieved⟩ := run.achieved (.inl success)
  obtain rfl := (achieved.advertised m).1 hm
  refine ⟨follows.distinct hd, fun kind => ?_, fun kind target ht => ?_⟩
  · exact achieved.versions_eq (follows.tracked (u := []) (by simpa using run)) kind
  · refine follows.contains hd lasting.now_le
      (fun d hd payload lifetime hb => lasting.written d hd _ payload lifetime hb)
      (run.not_removed hm ht) ?_
    obtain ⟨payload, -, hwrite⟩ | hfound := achieved.secured hl ht
    · exact .inr ⟨payload, _, hwrite⟩
    · exact .inl (lasting.found _ hfound)

/-- Between two epochs the versions stay, and so do the entries of the given ones that live until
later. -/
structure Undisturbed (p : SyncPolicy) (m : Metadata) (later : Instant) (w w' : World) : Prop where
  distinct : w'.cache.Distinct
  versions_eq : w'.versions = w.versions
  contains : ∀ kind, ∀ target ∈ p.targets kind,
    w.cache.contains later (target.key (m.latest kind)) = true →
      w'.cache.contains later (target.key (m.latest kind)) = true

/-- What happens outside of epochs does not disturb. -/
theorem Outside.undisturbed (step : Outside w w') (hd : w.cache.Distinct) (hle : w'.now ≤ later) :
    Undisturbed p m later w w' where
  distinct := (step.keeps hd .localization default).distinct
  versions_eq := step.versions_eq
  contains := by
    intro kind target _ hlives
    rw [MemoryCache.contains, (step.keeps hd target (m.latest kind)).live?_eq hle]
    exact hlives

theorem World.Current.undisturbed (hc : w.Current p m later)
    (hu : Undisturbed p m later w w') : w'.Current p m later where
  distinct := hu.distinct
  versions kind := by
    rw [hu.versions_eq]
    exact hc.versions kind
  contains kind target ht := hu.contains kind target ht (hc.contains kind target ht)

/-- The stores are as an epoch has left them that succeeded with some versions, and nothing of these
expires before later or was removed. -/
inductive Synchronized (p : SyncPolicy) (m : Metadata) (later : Instant) (w : World) : Prop
  | intro {start w₁ : World} {trigger : Trigger} {t : List Moment} {epoch : Epoch}
    (run : Run p trigger t (.ended epoch)) (success : epoch.outcome = some .success)
    (told : Brought t .metadata m) (looks : LooksWell t) (follows : Follows start t w₁)
    (distinct : start.cache.Distinct) (lasting : Lasting start w₁ t later)
    (undisturbed : Undisturbed p m later w₁ w)

theorem Synchronized.current (hs : Synchronized p m later w) : w.Current p m later := by
  obtain ⟨run, success, told, looks, follows, distinct, lasting, undisturbed⟩ := hs
  exact (run.current_of_success success told looks follows distinct lasting).undisturbed undisturbed

/-! ## The next epoch -/

/-- Before an epoch looks an entry up, it has touched none. -/
theorem Run.not_touches_of_lookup {worker : Worker} {e : Exchange} {key : CacheKey}
    (run : Run p trigger (t ++ .answered worker e :: u) s)
    (hq : e.request.call? = some (.exist key)) {worker' : Worker} {e' : Exchange}
    (he : Moment.answered worker' e' ∈ t) (key' : CacheKey) : ¬ e'.Touches key' := by
  have hcall : ∀ c, e'.request.call? = some c → c.isOfKind = false := by
    intro c hc
    obtain ⟨s₁, run₁, -⟩ := run.split
    cases worker' with
    | job n =>
      obtain ⟨_, _, rfl⟩ := run₁.fetch_of_answered he hc
      rfl
    | epoch =>
      cases worker with
      | job n =>
        obtain ⟨_, _, heq⟩ := run.fetch_of_answered (n := n) (e := e) (by simp) hq
        cases heq
      | epoch =>
        cases run.asked_epoch (.answered e.answer) with
        | checking asks =>
          obtain ⟨next, hpath⟩ := asks
          obtain ⟨_, hasks⟩ := Path.asks_of_mem hpath (mem_exchanges.2 he)
          exact Request.IsOfCheck.isOfKind_eq (asks_checking hasks) hc
        | writing writes asks => cases (asks_writing_request asks).isOfCheck_eq hq
        | concluding ends =>
          rw [call?_of_isOfConclusion ends] at hq
          cases hq
  intro htouch
  cases htouch with
  | written brings => cases hcall _ brings.call?
  | removed brings => cases hcall _ brings.call?

/-- **Where the versions are current, nothing is found to be absent.** -/
theorem World.Current.not_absent (hc : w.Current p m later) (run : Run p trigger t s)
    (follows : Follows w t w') {kind : DataKind} {target : FetchTarget}
    (ht : target ∈ p.targets kind)
    (looked : ∀ d ∈ World.since w w', ∀ key found, d.2.Brings (.exist key) found → d.1 ≤ later) :
    ¬ Brought t (.exist (target.key (m.latest kind))) false := by
  rintro ⟨worker, e, he, hb⟩
  obtain ⟨past, rest, rfl⟩ := List.append_of_mem he
  obtain ⟨w₁, follows₁, hanswers, -, log, hlog⟩ := follows.split
  have hkeeps : w.Keeps w₁ (target.key (m.latest kind)) :=
    follows₁.keeps hc.distinct fun worker' e' he' => run.not_touches_of_lookup hb.call? he' _
  have hle : w₁.now ≤ later := by
    have hlog' : w'.log = (log ++ (w₁.now, e) :: World.since w w₁) ++ w.log := by
      rw [hlog, follows₁.log_eq]
      simp
    refine looked (w₁.now, e) ?_ _ false hb
    rw [World.since_eq hlog']
    simp
  have hgives : false = w₁.cache.contains w₁.now (target.key (m.latest kind)) :=
    hanswers (.exist _) false hb
  rw [MemoryCache.contains, hkeeps.live?_eq (Nat.le_refl _), ← MemoryCache.contains,
    MemoryCache.contains_of_le (hc.contains kind target ht) hle] at hgives
  cases hgives

/-- **A second epoch changes nothing.** An epoch that knows the versions is unchanged exactly when the
committed ones are advertised and no entry was found to be absent. So is every epoch that is told the
versions with which one has succeeded, as long as nothing of these has expired or been removed: it
does nothing but look. -/
theorem Run.idempotent (run : Run p trigger t (.ended epoch)) (hm : Brought t .metadata m)
    (hs : Brought t .versions stored) :
    (epoch.outcome = some .unchanged ↔
      (∀ kind, stored.get kind = some (m.latest kind)) ∧
        ∀ key, ¬ Brought t (.exist key) false) ∧
    ∀ w w' later, Synchronized p m later w → Follows w t w' →
      (∀ d ∈ World.since w w', ∀ key found, d.2.Brings (.exist key) found → d.1 ≤ later) →
      Unchanged t epoch ∧ w'.versions = w.versions ∧
        ∀ (target : FetchTarget) v, w.Keeps w' (target.key v) := by
  obtain ⟨sels, settled, hunchanged⟩ := run.settled hm hs
  refine ⟨hunchanged.trans settled.eq_nil_iff, fun w w' later synchronized follows looked => ?_⟩
  have current := synchronized.current
  have tracked := follows.tracked (u := []) (by simpa using run)
  have unchanged : Unchanged t epoch := by
    refine run.unchanged (hunchanged.2 (settled.eq_nil_iff.2 ⟨fun kind => ?_, fun key hb => ?_⟩))
    · rw [tracked.told stored hs]
      exact current.versions kind
    · obtain ⟨kind, target, ht, rfl⟩ := settled.exists_of_lookup key false hb
      exact current.not_absent run follows ht looked hb
  have huntouched : ∀ c, c.isOfKind = true → c ∉ calls t := by
    intro c hkind hc
    rw [Call.isOfKind_of_isOfCheck (unchanged.calls_of_check c hc)] at hkind
    cases hkind
  refine ⟨unchanged, StoredVersions.eq_of_get fun kind => ?_, fun target v => ?_⟩
  · exact tracked.unchanged kind fun v hb => huntouched _ rfl (run.mem_calls_of_brought hb rfl)
  · refine follows.keeps current.distinct fun worker e he touches => ?_
    cases touches with
    | written brings =>
      exact huntouched _ rfl (run.mem_calls_of_brought ⟨worker, e, he, brings⟩ rfl)
    | removed brings =>
      exact huntouched _ rfl (run.mem_calls_of_brought ⟨worker, e, he, brings⟩ rfl)

/-- A look whether an entry exists. -/
def looksUp (e : Exchange) : Bool := e.request.call? matches some (.exist _)

/-- A payload that is written still lives some time later. -/
def livesOn (e : Exchange) (age : Nat) : Bool :=
  match e.done? with
  | some (.write _ _ lifetime) => age < lifetime.nanoseconds
  | _ => true

/-- After a smooth first epoch the next one, a little later, is unchanged. -/
theorem Run.idempotent_fullOnly :
    ∃ t epoch w w', Run .fullOnly .scheduled t (.ended epoch) ∧
      Synchronized .fullOnly ⟨⟨"2"⟩, ⟨"1"⟩⟩ 5 w ∧ Follows w t w' ∧ Unchanged t epoch ∧
      w'.versions = w.versions := by
  let m : Metadata := ⟨⟨"2"⟩, ⟨"1"⟩⟩
  let first := (Conduct.smooth m .cold (.object []) fun _ => false).play .fullOnly .manual false
  let second := (Conduct.smooth m ⟨some ⟨"2"⟩, some ⟨"1"⟩⟩ (.object []) fun _ => false).play
    .fullOnly .scheduled false
  have run₁ : Run .fullOnly .manual first.history (.ended first.result) := Conduct.play_run false
  have run₂ : Run .fullOnly .scheduled second.history (.ended second.result) :=
    Conduct.play_run false
  have hsuccess : first.result.outcome = some .success := by decide +kernel
  have hlookups : (exchanges .epoch first.history).any looksUp = false := by decide +kernel
  have hlooks : ∀ e ∈ exchanges .epoch first.history, ∀ key,
      e.request.call? ≠ some (.exist key) := by
    intro e he key hcall
    have hno := List.any_eq_false.1 hlookups e he
    simp [looksUp, hcall] at hno
  have htold₁ : Brought first.history .metadata m :=
    ⟨.epoch, _, List.mem_of_getElem? (i := 5) rfl, .attempt _⟩
  have htold₂ : Brought second.history .metadata m :=
    ⟨.epoch, _, List.mem_of_getElem? (i := 5) rfl, .attempt _⟩
  have hstored : Brought second.history .versions ⟨some ⟨"2"⟩, some ⟨"1"⟩⟩ :=
    ⟨.epoch, _, List.mem_of_getElem? (i := 7) rfl, .call _⟩
  have hworlds : ((World.cold 0).follow? first.history).any (fun w =>
      (World.since (.cold 0) w).all (fun d => livesOn d.2 (5 - d.1)) &&
      ({ w with now := w.now + 5 }.follow? second.history).any fun w' =>
        (World.since { w with now := w.now + 5 } w').all fun d => decide (d.1 ≤ 5)) = true := by
    decide +kernel
  clear_value first second
  obtain ⟨w, hfollow, hchecks⟩ := (Option.any_eq_true _ _).1 hworlds
  simp only [Bool.and_eq_true, List.all_eq_true] at hchecks
  obtain ⟨hwrites, hrest⟩ := hchecks
  have hnow : w.now = 0 := World.now_of_follow? hfollow
  obtain ⟨w', hfollow', hlooked⟩ := (Option.any_eq_true _ _).1 hrest
  simp only [List.all_eq_true, decide_eq_true_eq] at hlooked
  have follows := World.follows_of_start hfollow
  have follows' := World.follows_of_start hfollow'
  have hdistinct : (World.cold 0).cache.Distinct := MemoryCache.distinct_empty
  have lasting : Lasting (.cold 0) w first.history 5 := by
    refine ⟨by simp [hnow], fun key hb => ?_, fun d hd key payload lifetime hb => ?_⟩
    · obtain ⟨e, he, hb⟩ := run₁.epoch_of_brought hb rfl
      exact absurd hb.call? (hlooks e he key)
    · have hlife := hwrites d hd
      rw [livesOn, hb.done?] at hlife
      simpa using hlife
  have synchronized : Synchronized .fullOnly m 5 { w with now := w.now + 5 } :=
    .intro run₁ hsuccess htold₁ (fun e he key hcall => absurd hcall (hlooks e he key)) follows
      hdistinct lasting ((Outside.tick 5).undisturbed (follows.distinct hdistinct) (by simp [hnow]))
  obtain ⟨-, hidle⟩ := Run.idempotent run₂ htold₂ hstored
  obtain ⟨unchanged, hversions, -⟩ := hidle _ _ 5 synchronized follows' fun d hd _ _ _ => hlooked d hd
  exact ⟨_, _, _, _, run₂, synchronized, follows', unchanged, hversions⟩

end Engine

end ContentSync
