import ContentSync.Engine.Checking
import ContentSync.Proofs.Content.Keys
import ContentSync.Proofs.Engine.RetryPath

/-!
# Paths through the check

* `asks_missing` / `ends_missing` — whether entries exist is asked of every target of an unchanged
  version, and those whose entry was found to be absent are fetched;
* `Selection.Faithful` / `ends_selectKinds` — a kind is selected with all its targets when its version
  has changed, and otherwise with those that are absent;
* `intact_of_ends_selectKinds` — a kind that is not selected has lost nothing.
-/

set_option autoImplicit false

namespace ContentSync

namespace SegmentPolicy

theorem nodup_segments (p : SegmentPolicy) : p.segments.Nodup := by
  cases p <;> decide

end SegmentPolicy

namespace SyncPolicy

theorem kind_of_mem_targets {p : SyncPolicy} {k : DataKind} {t : FetchTarget}
    (ht : t ∈ p.targets k) : t.kind = k := by
  cases k with
  | gameData =>
    obtain ⟨s, -, rfl⟩ := List.mem_map.1 ht
    rfl
  | localization =>
    rw [targets, List.mem_singleton] at ht
    rw [ht]
    rfl

theorem nodup_targets (p : SyncPolicy) (k : DataKind) : (p.targets k).Nodup := by
  cases k with
  | gameData =>
    refine List.Pairwise.map _ (fun a b hab h => hab ?_) p.segmentPolicy.nodup_segments
    exact FetchTarget.gameData.inj h
  | localization => simp [targets]

theorem targets_ne_nil (p : SyncPolicy) (k : DataKind) : p.targets k ≠ [] := by
  cases k with
  | gameData =>
    rw [targets, ne_eq, List.map_eq_nil_iff]
    cases p.segmentPolicy <;> decide
  | localization => exact List.cons_ne_nil _ _

end SyncPolicy

namespace Engine

open Program

variable {p : SyncPolicy} {h : List Exchange} {r : Request}

/-- The answer that an entry does not exist. -/
def absence (p : SyncPolicy) (t : FetchTarget) (v : Version) : Exchange :=
  ⟨.call (.exist (t.key v)) p.ioTimeout, some (.ok false)⟩

/-- The answer with the advertised versions. -/
def advertisement (p : SyncPolicy) (m : Metadata) : Exchange :=
  ⟨.attempt .metadata p.fetchTimeout, .answered (.ok m)⟩

/-- The answer with the committed versions. -/
def committal (p : SyncPolicy) (s : StoredVersions) : Exchange :=
  ⟨.call .versions p.ioTimeout, some (.ok s)⟩

/-! ## Targets that have gone from the cache -/

theorem asks_missing {v : Version} {ts : List FetchTarget} (hr : (missing p v ts).Asks h r) :
    ∃ t ∈ ts, r = .call (.exist (t.key v)) p.ioTimeout := by
  induction ts generalizing h with
  | nil => simp [missing] at hr
  | cons t ts ih =>
    simp only [missing, asks_bind, asks_bounded, asks_pure, and_false, exists_false,
      or_false] at hr
    obtain ⟨-, rfl⟩ | ⟨k, l, a, rfl, -, hl⟩ := hr
    · exact ⟨t, List.mem_cons_self, rfl⟩
    · obtain ⟨u, hu, rfl⟩ := ih hl
      exact ⟨u, List.mem_cons_of_mem _ hu, rfl⟩

/-- Every target is looked up. -/
theorem exists_of_ends_missing {v : Version} {ts found : List FetchTarget}
    (hr : (missing p v ts).Ends h found) :
    ∀ t ∈ ts, ∃ a, ⟨.call (.exist (t.key v)) p.ioTimeout, a⟩ ∈ h := by
  induction ts generalizing h found with
  | nil => exact fun _ ht => absurd ht List.not_mem_nil
  | cons t ts ih =>
    simp only [missing, ends_bind, ends_bounded, ends_pure] at hr
    obtain ⟨_, _, found', rfl, ⟨a, rfl, rfl⟩, k, _, others, rfl, hk, rfl, rfl⟩ := hr
    intro u hu
    obtain rfl | hu := List.mem_cons.1 hu
    · exact ⟨a, by simp⟩
    · obtain ⟨b, hb⟩ := ih hk u hu
      exact ⟨b, by simp [hb]⟩

/-- A target is fetched when its entry was found to be absent. -/
theorem ends_missing {v : Version} {ts found : List FetchTarget} (hts : ts.Nodup)
    (hr : (missing p v ts).Ends h found) :
    found.Sublist ts ∧ ∀ t, t ∈ found ↔ t ∈ ts ∧ absence p t v ∈ h := by
  induction ts generalizing h found with
  | nil =>
    simp only [missing, ends_pure] at hr
    simp [hr]
  | cons t ts ih =>
    obtain ⟨hnot, hts⟩ := List.nodup_cons.1 hts
    simp only [missing, ends_bind, ends_bounded, ends_pure] at hr
    obtain ⟨_, _, found', rfl, ⟨a, rfl, rfl⟩, k, _, others, rfl, hk, rfl, rfl⟩ := hr
    obtain ⟨hsub, hmem⟩ := ih hts hk
    have hhead : ∀ u, absence p u v = ⟨.call (.exist (t.key v)) p.ioTimeout, a⟩ ↔
        u = t ∧ a = some (.ok false) := by
      intro u
      constructor
      · intro he
        simp only [absence, Exchange.mk.injEq, Request.call.injEq, Call.exist.injEq,
          and_true] at he
        obtain ⟨hkey, ha⟩ := he
        exact ⟨(FetchTarget.key_inj hkey).1, (eq_of_heq ha).symm⟩
      · rintro ⟨rfl, rfl⟩
        rfl
    have hlater : ∀ u, absence p u v ∈ k → u ≠ t := by
      rintro u hu rfl
      obtain ⟨l, hl⟩ := Path.asks_of_mem hk hu
      obtain ⟨w, hw, heq⟩ := asks_missing hl
      simp only [absence, Request.call.injEq, Call.exist.injEq, and_true] at heq
      obtain ⟨rfl, -⟩ := FetchTarget.key_inj heq
      exact hnot hw
    have hother (ha : a ≠ some (.ok false)) : others.Sublist (t :: ts) ∧
        ∀ u, u ∈ others ↔ u ∈ t :: ts ∧
          absence p u v ∈ [⟨.call (.exist (t.key v)) p.ioTimeout, a⟩] ++ (k ++ []) := by
      refine ⟨hsub.cons t, fun u => ?_⟩
      simp only [hmem, List.append_nil, List.cons_append, List.nil_append, List.mem_cons, hhead, ha,
        and_false, false_or]
      constructor
      · rintro ⟨hu, habs⟩
        exact ⟨.inr hu, habs⟩
      · rintro ⟨rfl | hu, habs⟩
        · exact absurd rfl (hlater _ habs)
        · exact ⟨hu, habs⟩
    rcases a with _ | _ | _ | _
    · exact hother (by simp)
    · exact hother (by simp)
    · refine ⟨hsub.cons_cons t, fun u => ?_⟩
      simp only [boundedResult, List.mem_cons, hmem, List.append_nil, List.cons_append,
        List.nil_append, hhead, and_true]
      constructor
      · rintro (rfl | ⟨hu, habs⟩)
        · exact ⟨.inl rfl, .inl rfl⟩
        · exact ⟨.inr hu, .inr habs⟩
      · rintro ⟨rfl | hu, heq | habs⟩
        · exact .inl rfl
        · exact .inl rfl
        · exact .inl heq
        · exact .inr ⟨hu, habs⟩
    · exact hother (by simp)

/-! ## Selection of kinds -/

/-- A kind is selected with what there is to fetch for it. -/
structure Selection.Faithful (p : SyncPolicy) (m : Metadata) (s : StoredVersions)
    (h : List Exchange) (sel : Selection) : Prop where
  committed_eq : sel.committed = s.get sel.kind
  advertised_eq : sel.advertised = m.latest sel.kind
  targets_ne_nil : sel.targets ≠ []
  sublist : sel.targets.Sublist (p.targets sel.kind)
  /-- All targets of a changed version, and of an unchanged one those that are absent. -/
  mem_targets : ∀ t, t ∈ sel.targets ↔ t ∈ p.targets sel.kind ∧
    (s.get sel.kind = some (m.latest sel.kind) → absence p t (m.latest sel.kind) ∈ h)

theorem asks_targetsToFetch {k : DataKind} {committed : Option Version} {advertised : Version}
    (hr : (targetsToFetch p k committed advertised).Asks h r) :
    committed = some advertised ∧
      ∃ t ∈ p.targets k, r = .call (.exist (t.key advertised)) p.ioTimeout := by
  unfold targetsToFetch at hr
  split at hr
  · rename_i hsame
    exact ⟨hsame, asks_missing hr⟩
  · simp at hr

theorem ends_targetsToFetch {k : DataKind} {committed : Option Version} {advertised : Version}
    {ts : List FetchTarget} (hr : (targetsToFetch p k committed advertised).Ends h ts) :
    ts.Sublist (p.targets k) ∧ ∀ t, t ∈ ts ↔ t ∈ p.targets k ∧
      (committed = some advertised → absence p t advertised ∈ h) := by
  unfold targetsToFetch at hr
  split at hr
  · rename_i heq
    obtain ⟨hsub, hmem⟩ := ends_missing (p.nodup_targets k) hr
    exact ⟨hsub, fun t => by simp [hmem, heq]⟩
  · rename_i hne
    simp only [ends_pure] at hr
    obtain ⟨-, rfl⟩ := hr
    exact ⟨.refl _, fun t => by simp [hne]⟩

variable {m : Metadata} {s : StoredVersions}

/-- Entries are looked up of kinds whose version has not changed. -/
theorem asks_selectKinds_unchanged {ks : List DataKind} (hr : (selectKinds p m s ks).Asks h r) :
    ∃ k ∈ ks, s.get k = some (m.latest k) ∧
      ∃ t ∈ p.targets k, r = .call (.exist (t.key (m.latest k))) p.ioTimeout := by
  induction ks generalizing h with
  | nil => simp [selectKinds] at hr
  | cons k ks ih =>
    simp only [selectKinds, asks_bind, asks_pure, and_false, exists_false, or_false] at hr
    obtain hk | ⟨_, _, _, rfl, -, hl⟩ := hr
    · exact ⟨k, List.mem_cons_self, asks_targetsToFetch hk⟩
    · obtain ⟨l, hmem, hlooked⟩ := ih hl
      exact ⟨l, List.mem_cons_of_mem _ hmem, hlooked⟩

theorem asks_selectKinds {ks : List DataKind} (hr : (selectKinds p m s ks).Asks h r) :
    ∃ k ∈ ks, ∃ t ∈ p.targets k, r = .call (.exist (t.key (m.latest k))) p.ioTimeout := by
  obtain ⟨k, hk, -, hlooked⟩ := asks_selectKinds_unchanged hr
  exact ⟨k, hk, hlooked⟩

/-- What is found absent for a kind is a target of it. -/
theorem kind_eq_of_absence_mem {k : DataKind} {committed : Option Version} {advertised v : Version}
    {ts : List FetchTarget} {t : FetchTarget}
    (hr : (targetsToFetch p k committed advertised).Ends h ts) (habs : absence p t v ∈ h) :
    t.kind = k := by
  obtain ⟨_, hl⟩ := Path.asks_of_mem hr habs
  obtain ⟨-, u, hu, heq⟩ := asks_targetsToFetch hl
  simp only [absence, Request.call.injEq, Call.exist.injEq, and_true] at heq
  obtain ⟨rfl, -⟩ := FetchTarget.key_inj heq
  exact SyncPolicy.kind_of_mem_targets hu

theorem kind_mem_of_absence_mem {ks : List DataKind} {sels : List Selection} {t : FetchTarget}
    {v : Version} (hr : (selectKinds p m s ks).Ends h sels) (habs : absence p t v ∈ h) :
    t.kind ∈ ks := by
  obtain ⟨_, hl⟩ := Path.asks_of_mem hr habs
  obtain ⟨k, hk, u, hu, heq⟩ := asks_selectKinds hl
  simp only [absence, Request.call.injEq, Call.exist.injEq, and_true] at heq
  obtain ⟨rfl, -⟩ := FetchTarget.key_inj heq
  rwa [SyncPolicy.kind_of_mem_targets hu]

/-- Kinds are selected in order, and faithfully. -/
theorem ends_selectKinds {ks : List DataKind} {sels : List Selection} (hks : ks.Nodup)
    (hr : (selectKinds p m s ks).Ends h sels) :
    (sels.map (·.kind)).Sublist ks ∧ ∀ sel ∈ sels, sel.Faithful p m s h := by
  induction ks generalizing h sels with
  | nil =>
    simp only [selectKinds, ends_pure] at hr
    simp [hr]
  | cons k ks ih =>
    obtain ⟨hnot, hks⟩ := List.nodup_cons.1 hks
    simp only [selectKinds, ends_bind, ends_pure] at hr
    obtain ⟨h₁, _, ts, rfl, hts, h₂, _, others, rfl, hothers, rfl, rfl⟩ := hr
    obtain ⟨hsub, hall⟩ := ih hks hothers
    obtain ⟨htsub, htmem⟩ := ends_targetsToFetch hts
    -- The answers about one kind say nothing about another one, whose keys are different.
    have hfirst : ∀ t ∈ p.targets k, absence p t (m.latest k) ∈ h₂ → False := by
      intro t ht habs
      have hmem := kind_mem_of_absence_mem hothers habs
      rw [SyncPolicy.kind_of_mem_targets ht] at hmem
      exact hnot hmem
    have hsecond : ∀ sel ∈ others, ∀ t ∈ p.targets sel.kind,
        absence p t (m.latest sel.kind) ∈ h₁ → False := by
      intro sel hsel t ht habs
      have hmem := hsub.subset (List.mem_map_of_mem (f := (·.kind)) hsel)
      rw [← SyncPolicy.kind_of_mem_targets ht, kind_eq_of_absence_mem hts habs] at hmem
      exact hnot hmem
    have hrest : ∀ sel ∈ others, sel.Faithful p m s (h₁ ++ (h₂ ++ [])) := by
      intro sel hsel
      obtain ⟨hc, ha, hne, hs, hm⟩ := hall sel hsel
      refine ⟨hc, ha, hne, hs, fun t => (hm t).trans (and_congr_right fun ht => ?_)⟩
      refine imp_congr_right fun _ => ?_
      simp only [List.append_nil, List.mem_append]
      exact ⟨.inr, fun hmem => hmem.resolve_left (hsecond sel hsel t ht)⟩
    by_cases hempty : ts.isEmpty
    · simp only [hempty, if_true]
      exact ⟨hsub.cons k, hrest⟩
    · simp only [hempty, Bool.false_eq_true, if_false]
      refine ⟨hsub.cons_cons k, ?_⟩
      intro sel hsel
      obtain rfl | hsel := List.mem_cons.1 hsel
      · refine ⟨rfl, rfl, by simpa using hempty, htsub, fun t => ?_⟩
        refine (htmem t).trans (and_congr_right fun ht => imp_congr_right fun _ => ?_)
        simp only [List.append_nil, List.mem_append]
        exact ⟨.inl, fun hmem => hmem.resolve_right (hfirst t ht)⟩
      · exact hrest sel hsel

/-- **A kind that is not selected is intact**: its version has not changed, and no target of it was
found absent. -/
theorem intact_of_ends_selectKinds {ks : List DataKind} {sels : List Selection} (hks : ks.Nodup)
    (hr : (selectKinds p m s ks).Ends h sels) {k : DataKind} (hk : k ∈ ks)
    (hnot : k ∉ sels.map (·.kind)) :
    s.get k = some (m.latest k) ∧ ∀ t ∈ p.targets k, absence p t (m.latest k) ∉ h := by
  induction ks generalizing h sels with
  | nil => cases hk
  | cons l ks ih =>
    obtain ⟨hl, hks⟩ := List.nodup_cons.1 hks
    simp only [selectKinds, ends_bind, ends_pure] at hr
    obtain ⟨h₁, _, ts, rfl, hts, h₂, _, others, rfl, hothers, rfl, rfl⟩ := hr
    have hnothers : k ∉ others.map (·.kind) := by
      intro hmem
      apply hnot
      split
      · exact hmem
      · exact List.mem_cons_of_mem _ hmem
    obtain rfl | hk := List.mem_cons.1 hk
    · have hempty : ts = [] := by
        rw [← List.isEmpty_iff, ← Bool.not_eq_false]
        intro hts
        exact hnot (by simp [hts])
      subst hempty
      obtain ⟨-, hmem⟩ := ends_targetsToFetch hts
      have hgone : ∀ t ∈ p.targets k, ¬ (s.get k = some (m.latest k) →
          absence p t (m.latest k) ∈ h₁) := fun t ht himp =>
        absurd ((hmem t).2 ⟨ht, himp⟩) List.not_mem_nil
      obtain ⟨t₀, ht₀⟩ := List.exists_mem_of_ne_nil _ (p.targets_ne_nil k)
      refine ⟨(Classical.not_imp.1 (hgone t₀ ht₀)).1, fun t ht habs => ?_⟩
      simp only [List.append_nil, List.mem_append] at habs
      obtain habs | habs := habs
      · exact (Classical.not_imp.1 (hgone t ht)).2 habs
      · have hmem := kind_mem_of_absence_mem hothers habs
        rw [SyncPolicy.kind_of_mem_targets ht] at hmem
        exact hl hmem
    · obtain ⟨hcommitted, habsent⟩ := ih hks hothers hk hnothers
      refine ⟨hcommitted, fun t ht habs => ?_⟩
      simp only [List.append_nil, List.mem_append] at habs
      obtain habs | habs := habs
      · have hkind := kind_eq_of_absence_mem hts habs
        rw [SyncPolicy.kind_of_mem_targets ht] at hkind
        exact hl (hkind ▸ hk)
      · exact habsent t ht habs

/-- Every target of an unchanged version is looked up. -/
theorem exists_of_ends_selectKinds {ks : List DataKind} {sels : List Selection}
    (hr : (selectKinds p m s ks).Ends h sels) {k : DataKind} (hk : k ∈ ks)
    (hsame : s.get k = some (m.latest k)) :
    ∀ t ∈ p.targets k, ∃ a, ⟨.call (.exist (t.key (m.latest k))) p.ioTimeout, a⟩ ∈ h := by
  induction ks generalizing h sels with
  | nil => cases hk
  | cons l ks ih =>
    simp only [selectKinds, ends_bind, ends_pure] at hr
    obtain ⟨h₁, _, ts, rfl, hts, h₂, _, others, rfl, hothers, rfl, rfl⟩ := hr
    intro t ht
    obtain rfl | hk := List.mem_cons.1 hk
    · rw [targetsToFetch, if_pos hsame] at hts
      obtain ⟨a, ha⟩ := exists_of_ends_missing hts t ht
      exact ⟨a, List.mem_append_left _ ha⟩
    · obtain ⟨a, ha⟩ := ih hothers hk t ht
      exact ⟨a, by simp [ha]⟩

end Engine

end ContentSync
