import ContentSync.Proofs.Engine.Restoration
import ContentSync.Proofs.Epoch.Collected

/-!
# The changes that an epoch tells of

An epoch compares game data in full and in parts, each part with its own payload and its own baseline,
and tells of all changes at once. Where the payloads belong together, and so do the baselines, these are
the changes of game data in full.

* `known_of_ends_comparison`, `Run.compared_with` — what was compared where the changes are known;
* `Consistent` / `Consistent.diff_eq` — payloads and baselines that belong together;
* `Run.changes_of_full` — the changes of an epoch whose payloads belong together;
* `changes_eq_full` — game data in full is the union of its parts.
-/

set_option autoImplicit false

namespace ContentSync

namespace Engine

open Program

variable {p : SyncPolicy} {trigger : Trigger} {t : List Moment} {epoch : Epoch} {r : KindReport}
  {x : TargetReport} {changes whole : Changes} {old : Option Json} {new : Json} {s : Segment}

/-! ## Known changes -/

/-- Changes are known if there was no version before, or if the cache has answered what it has of it. -/
theorem known_of_ends_comparison {target : FetchTarget} {payload : Json} {h : List Exchange}
    (hq : (comparison p r target payload).Ends h (some (.known changes))) :
    ∃ baseline, compare target baseline payload = .known changes ∧
      ((r.oldVersion = none ∧ baseline = none) ∨ ∃ version, r.oldVersion = some version ∧
        ⟨.call (.read (target.key version)) p.ioTimeout, some (.ok baseline)⟩ ∈ h) := by
  unfold comparison at hq
  split at hq
  · simp at hq
  obtain ⟨_, hcompare, heq⟩ := ends_map.1 hq
  obtain rfl := Option.some.inj heq
  unfold compareTarget at hcompare
  split at hcompare
  · next hnone =>
    simp only [computeChanges, ends_bind, ends_request, ends_pure] at hcompare
    obtain ⟨_, _, _, -, -, -, heq⟩ := hcompare
    exact ⟨none, heq.symm, .inl ⟨hnone, rfl⟩⟩
  · next version hversion =>
    simp only [ends_bind, ends_bounded] at hcompare
    obtain ⟨_, _, result, rfl, ⟨answer, rfl, hanswer⟩, hrest⟩ := hcompare
    cases result with
    | error f => simp at hrest
    | ok baseline =>
      simp only [computeChanges, ends_bind, ends_request, ends_pure] at hrest
      obtain ⟨_, _, _, -, -, -, heq⟩ := hrest
      rw [boundedResult_eq_ok_iff.1 hanswer.symm]
      exact ⟨baseline, heq.symm, .inr ⟨version, hversion, by simp⟩⟩

/-- What was compared where changes are known: the payload that was fetched, and what the cache has
answered for the version before. -/
theorem Run.compared_with (run : Run p trigger t (.ended epoch)) (hr : r ∈ epoch.kinds)
    (hx : x ∈ r.targets) (hc : x.comparison = some (.known changes)) :
    ∃ baseline payload, compare x.target baseline payload = .known changes ∧
      Brought t (.fetch x.target r.newVersion p.unzip) payload ∧
      ((r.oldVersion = none ∧ baseline = none) ∨ ∃ version, r.oldVersion = some version ∧
        Brought t (.read (x.target.key version)) baseline) := by
  obtain ⟨m, stored, sels, results, sel, k, hs, hcompleted, hsel, hp⟩ := run.processed_of_report hr
  obtain ⟨hkind, -⟩ := hcompleted.selected_of_mem hs hsel hp hx
  obtain ⟨hsame, hwas, hnew⟩ := hp.report_eq
  obtain ⟨-, -, -, k', hk', hcourses⟩ := report_of_ends_processKind hp.ends
  obtain ⟨f, hf, k'', hk'', hcourse⟩ := hcourses.exists_of_mem.2 x hx
  obtain ⟨payload, l, hpayload, hl, hends⟩ := hcourse.compared hc
  rw [hcourse.target_eq] at hkind ⊢
  obtain ⟨baseline, hcompare, hbaseline⟩ := known_of_ends_comparison hends
  refine ⟨baseline, payload, hcompare, ?_, ?_⟩
  · rw [hnew]
    exact hcompleted.brought_of_result hs hsel (List.mem_of_mem_filter hf) (hkind.trans hsame)
      hpayload
  · rw [hwas]
    obtain hnone | ⟨version, hversion, hread⟩ := hbaseline
    · exact .inl hnone
    · exact .inr ⟨version, hversion, .epoch, _,
        mem_exchanges.1 (hp.part (hk' (hk'' (hl hread)))), .call _⟩

theorem compare_gameData_eq_known_iff :
    compare (.gameData s) old new = .known changes ↔ Diff.diff old new s = .ok changes := by
  unfold compare
  cases h : Diff.diff old new s <;> simp [h]

/-! ## Payloads that belong together -/

/-- The payloads that were fetched for a report agree with one payload, and the baselines that were read
for it agree with one baseline, each in the collections of its own segment. -/
structure Consistent (p : SyncPolicy) (t : List Moment) (r : KindReport) (old : Option Json)
    (new : Json) : Prop where
  served {s : Segment} {payload : Json} :
    Brought t (.fetch (.gameData s) r.newVersion p.unzip) payload → Diff.AlikeOn s.owned payload new
  cached {version : Version} {s : Segment} {baseline : Option Json} : r.oldVersion = some version →
    Brought t (.read (.ofGameData version s)) baseline →
      Option.Rel (Diff.AlikeOn s.owned) baseline old
  first : r.oldVersion = none → old = none

/-- The changes of a segment are known. -/
def Knows (r : KindReport) (s : Segment) : Prop :=
  ∃ x ∈ r.targets, x.target = .gameData s ∧ ∃ changes, x.comparison = some (.known changes)

/-- The changes of the target are known. -/
def isKnown (x : TargetReport) : Bool := x.comparison matches some (.known _)

theorem isKnown_iff {x : TargetReport} :
    isKnown x = true ↔ ∃ changes, x.comparison = some (.known changes) := by
  unfold isKnown
  cases x.comparison with
  | none => simp
  | some c => cases c <;> simp

instance : Decidable (Knows r s) :=
  decidable_of_iff (∃ x ∈ r.targets, x.target = .gameData s ∧ isKnown x = true)
    (by simp only [Knows, isKnown_iff])

/-- What is known of a segment is what the comparison of two payloads reports of it, if what was fetched
and what was read agree with them. -/
theorem Run.diff_eq (run : Run p trigger t (.ended epoch)) (hr : r ∈ epoch.kinds) (hx : x ∈ r.targets)
    (htarget : x.target = .gameData s) (hc : x.comparison = some (.known changes))
    (served : ∀ payload, Brought t (.fetch (.gameData s) r.newVersion p.unzip) payload →
      Diff.AlikeOn s.owned payload new)
    (read : ∀ version baseline, r.oldVersion = some version →
      Brought t (.read (.ofGameData version s)) baseline → Option.Rel (Diff.AlikeOn s.owned) baseline old)
    (first : r.oldVersion = none → old = none) : Diff.diff old new s = .ok changes := by
  obtain ⟨baseline, payload, hcompare, hfetched, hbaseline⟩ := run.compared_with hr hx hc
  rw [htarget] at hcompare hfetched hbaseline
  rw [← compare_gameData_eq_known_iff.1 hcompare]
  refine (Diff.diff_congr ?_ (served payload hfetched)).symm
  obtain ⟨hnone, rfl⟩ | ⟨version, hversion, hread⟩ := hbaseline
  · rw [first hnone]
    exact .none
  · exact read version baseline hversion hread

/-- What is known of a segment is what the comparison of the common payloads reports of it. -/
theorem Consistent.diff_eq (hcons : Consistent p t r old new) (run : Run p trigger t (.ended epoch))
    (hr : r ∈ epoch.kinds) (hx : x ∈ r.targets) (htarget : x.target = .gameData s)
    (hc : x.comparison = some (.known changes)) : Diff.diff old new s = .ok changes :=
  run.diff_eq hr hx htarget hc (fun _ => hcons.served) (fun _ _ => hcons.cached) hcons.first

theorem Run.eq_of_kind (run : Run p trigger t (.ended epoch)) {r' : KindReport}
    (hr : r ∈ epoch.kinds) (hr' : r' ∈ epoch.kinds) (hkind : r'.kind = r.kind) : r' = r :=
  List.inj_on_of_nodup_map run.reports_eq.1 hr' hr hkind

/-- A target is in the report of its own kind. -/
theorem Run.mem_targets_of_kind (run : Run p trigger t (.ended epoch)) (hr : r ∈ epoch.kinds)
    (hx : x ∈ epoch.targets) (hkind : x.target.kind = r.kind) : x ∈ r.targets := by
  obtain ⟨r', hr', hx⟩ := List.mem_flatMap.1 hx
  obtain rfl := run.eq_of_kind hr hr' ((run.kind_of_mem hr' hx).symm.trans hkind)
  exact hx

/-- **The changes of an epoch are those of game data in full**, and those of the localization bundle. -/
theorem Run.changes_of_full (run : Run p trigger t (.ended epoch)) (hr : r ∈ epoch.kinds)
    (hkind : r.kind = .gameData) (hcons : Consistent p t r old new)
    (hknown : Knows r .full ∨ ∀ s ∈ Segment.parts, Knows r s) :
    ∃ whole, Diff.diff old new .full = .ok whole ∧ epoch.changes =
      whole.merge (Epoch.knownChanges (epoch.targets.filter fun x => x.target = .localization)) := by
  have hfull := Diff.fullOfParts old new
  have hdiff {s : Segment} : Knows r s → ∃ x ∈ r.targets, ∃ changes,
      x.comparison = some (.known changes) ∧ Diff.diff old new s = .ok changes := by
    rintro ⟨x, hx, htarget, changes, hc⟩
    exact ⟨x, hx, changes, hc, hcons.diff_eq run hr hx htarget hc⟩
  have hwhole : ∃ whole, Diff.diff old new .full = .ok whole := by
    obtain hknown | hknown := hknown
    · obtain ⟨-, -, whole, -, hwhole⟩ := hdiff hknown
      exact ⟨whole, hwhole⟩
    · refine hfull.ok_iff.2 fun s hs => ?_
      obtain ⟨-, -, part, -, hpart⟩ := hdiff (hknown s hs)
      exact ⟨part, hpart⟩
  obtain ⟨whole, hwhole⟩ := hwhole
  refine ⟨whole, hwhole, Changes.ext_inWay fun way e => ?_⟩
  rw [run.changes_eq.1, Changes.mem_inWay_merge, Epoch.mem_knownChanges, Epoch.mem_knownChanges]
  constructor
  · rintro ⟨x, hx, changes, hc, he⟩
    cases htarget : x.target with
    | localization => exact .inr ⟨x, List.mem_filter.2 ⟨hx, by simpa⟩, changes, hc, he⟩
    | gameData s =>
      have hx := run.mem_targets_of_kind hr hx (by rw [htarget, hkind]; rfl)
      have hpart := hcons.diff_eq run hr hx htarget hc
      left
      by_cases hs : s = .full
      · subst hs
        rwa [Except.ok.inj (hwhole.symm.trans hpart)]
      · exact (hfull.mem_iff hwhole).2 ⟨s, by cases s <;> simp_all [Segment.parts], _, hpart, he⟩
  · rintro (he | ⟨x, hx, hknown⟩)
    · obtain hknown | hknown := hknown
      · obtain ⟨x, hx, changes, hc, hwhole'⟩ := hdiff hknown
        obtain rfl := Except.ok.inj (hwhole.symm.trans hwhole')
        exact ⟨x, List.mem_flatMap.2 ⟨r, hr, hx⟩, whole, hc, he⟩
      · obtain ⟨s, hs, part, hpart, he⟩ := (hfull.mem_iff hwhole).1 he
        obtain ⟨x, hx, changes, hc, hpart'⟩ := hdiff (hknown s hs)
        obtain rfl := Except.ok.inj (hpart.symm.trans hpart')
        exact ⟨x, List.mem_flatMap.2 ⟨r, hr, hx⟩, part, hc, he⟩
    · exact ⟨x, (List.mem_filter.1 hx).1, hknown⟩

/-- **Game data in full is the union of its parts.** It can be compared if every part can be, and then its
changes are those of the parts, merged in any order, of which no two have an entity in common; otherwise
the first part that cannot be compared says why. What a segment does not own has no influence on its
changes. So where an epoch is served, and has cached, each segment as a part of the same whole, its changes
are those of game data in full, and those of the localization bundle if they are known. -/
theorem changes_eq_full (old : Option Json) (new : Json) :
    Diff.FullOfParts old new ∧
    (∀ (s : Segment) (old' : Option Json) (new' : Json),
      Option.Rel (Diff.AlikeOn s.owned) old old' → Diff.AlikeOn s.owned new new' →
        Diff.diff old' new' s = Diff.diff old new s) ∧
    ∀ p trigger t epoch r, Run p trigger t (.ended epoch) → r ∈ epoch.kinds → r.kind = .gameData →
      Consistent p t r old new → (Knows r .full ∨ ∀ s ∈ Segment.parts, Knows r s) →
      ∃ whole, Diff.diff old new .full = .ok whole ∧
        epoch.changes = whole.merge
          (Epoch.knownChanges (epoch.targets.filter fun x => x.target = .localization)) ∧
        ((∀ x ∈ epoch.targets, x.target = .localization →
          ∀ changes, x.comparison ≠ some (.known changes)) → epoch.changes = whole) := by
  refine ⟨Diff.fullOfParts old new, fun s old' new' hold hnew => (Diff.diff_congr hold hnew).symm, ?_⟩
  intro p trigger t epoch r run hr hkind hcons hknown
  obtain ⟨whole, hwhole, hchanges⟩ := run.changes_of_full hr hkind hcons hknown
  refine ⟨whole, hwhole, hchanges, fun hnever => ?_⟩
  rw [hchanges]
  refine Changes.ext_inWay fun way e => Changes.mem_inWay_merge.trans (or_iff_left fun he => ?_)
  obtain ⟨x, hx, changes, hc, -⟩ := Epoch.mem_knownChanges.1 he
  obtain ⟨hx, htarget⟩ := List.mem_filter.1 hx
  exact hnever x hx (of_decide_eq_true htarget) changes hc

/-- Game data of which all collections but one are empty. -/
def oneUnit : Json :=
  .object (Segment.full.owned.map fun c =>
    (c, if c = "units" then .object [("REY", .null)] else .null))

/-- A version of game data is fetched for the first time, in full and in parts. -/
theorem changes_eq_full_oneUnit :
    ∃ t epoch r whole, Run .default .scheduled t (.ended epoch) ∧ r ∈ epoch.kinds ∧
      Consistent .default t r none oneUnit ∧ Knows r .full ∧
      Diff.diff none oneUnit .full = .ok whole ∧ epoch.changes = whole ∧
      whole.added.toList = [⟨"units", "REY"⟩] := by
  let o := Conduct.smooth ⟨⟨"2"⟩, ⟨"1"⟩⟩ ⟨none, some ⟨"1"⟩⟩ oneUnit fun _ => false
  let played := o.play .default .scheduled false
  have run : Run .default .scheduled played.history (.ended played.result) := Conduct.play_run false
  have hconforms : ∀ x ∈ played.history, o.Conforms x := Conduct.play_conforms fun _ => rfl
  have hkinds : played.result.kinds.map (fun r => (r.kind, r.oldVersion, decide (Knows r .full))) =
      [(.gameData, none, true)] := by decide +kernel
  have hlocalization : ∀ target ∈ played.result.targets.map (·.target), target ≠ .localization := by
    decide +kernel
  obtain ⟨r, hr, heq⟩ := List.mem_map.1 (hkinds ▸ List.mem_cons_self)
  simp only [Prod.mk.injEq, decide_eq_true_eq] at heq
  obtain ⟨hkind, hold, hknows⟩ := heq
  have hcons : Consistent .default played.history r none oneUnit :=
    { served := fun hb => by
        rw [Conduct.eq_ideal_of_conforms hconforms hb]
        exact .objects fun _ _ => rfl
      cached := fun hversion => by
        rw [hold] at hversion
        cases hversion
      first := fun _ => rfl }
  obtain ⟨-, -, hepochs⟩ := changes_eq_full none oneUnit
  obtain ⟨whole, hwhole, -, hchanges⟩ := hepochs _ _ _ _ r run hr hkind hcons (.inl hknows)
  refine ⟨_, _, r, whole, run, hr, hcons, hknows, hwhole, hchanges fun x hx htarget => ?_, ?_⟩
  · exact absurd htarget (hlocalization _ (List.mem_map_of_mem hx))
  · have hadded : (Diff.diff none oneUnit .full).toOption.map (·.added.toList) =
        some [⟨"units", "REY"⟩] := by decide +kernel
    rw [hwhole] at hadded
    exact Option.some.inj hadded

end Engine

end ContentSync
