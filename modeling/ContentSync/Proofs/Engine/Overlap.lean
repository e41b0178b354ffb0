import ContentSync.Proofs.Diff.Equality
import ContentSync.Proofs.Engine.Summary
import Mathlib.Data.String.Basic

/-!
# Entities that are reported twice

Game data in full and the part that owns an entity are compared each with its own baseline. Where both
baselines are cached, or both are missing, the two comparisons say the same of the entity. Where only one
of them is cached the other comparison takes everything for new, and an entity that has changed is also
reported as added.

* `Changes.OneWay`, `Changes.entities` / `Changes.total_eq` — reports that count each entity once;
* `Run.teller_of_mem` — which target has told of an entity;
* `PartlyCached` / `PartlyCached.diff_eq` — payloads that belong together, and baselines of which some
  are missing;
* `PartlyCached.added_and_changed_iff_segments` — which segments report the same entity, and how;
* `PartlyCached.not_mem_of_removed`, `PartlyCached.added_and_changed_iff` — what is reported twice;
* `PartlyCached.oneWay` — when nothing is;
* `Run.reported_twice_iff` — all of this.
-/

set_option autoImplicit false

namespace ContentSync

/-! ## Counting -/

namespace SortedSet

open Std

variable {α : Type} [Ord α] [TransOrd α] [LawfulEqOrd α]

omit [TransOrd α] in
theorem nodup_toList (s : SortedSet α) : s.toList.Nodup :=
  s.increasing.imp fun {a b} hlt heq => by simp [heq] at hlt

/-- Sets that have no element in common are counted together. -/
theorem size_union {s t : SortedSet α} (h : ∀ a ∈ s, a ∉ t) : (s.union t).size = s.size + t.size := by
  have hnodup : (s.toList ++ t.toList).Nodup :=
    List.nodup_append.2 ⟨s.nodup_toList, t.nodup_toList, fun a ha b hb heq => h a ha (heq ▸ hb)⟩
  have hperm : (s.union t).toList.Perm (s.toList ++ t.toList) := by
    rw [List.perm_ext_iff_of_nodup (nodup_toList _) hnodup]
    intro a
    rw [List.mem_append]
    exact mem_union
  exact hperm.length_eq.trans List.length_append

end SortedSet

namespace Changes

variable {c : Changes} {e : Entity}

/-- All entities that are reported. -/
def entities (c : Changes) : SortedSet Entity := (c.added.union c.removed).union c.changed

@[simp] theorem mem_entities : e ∈ c.entities ↔ c.Mentions e := by
  rw [entities, SortedSet.mem_union, SortedSet.mem_union, mentions_iff_mem, or_assoc]

/-- What has been and what is, where an entity is reported in some way. -/
def Way.Fits (was is : Prop) : Way → Prop
  | .added => is ∧ ¬ was
  | .removed => was ∧ ¬ is
  | .changed => was ∧ is

theorem Way.Fits.unique {was is : Prop} {way way' : Way} (h : way.Fits was is) (h' : way'.Fits was is) :
    way = way' := by
  cases way <;> cases way' <;> simp only [Way.Fits] at h h' <;> first | rfl | tauto

/-- Every entity is reported in one way. -/
def OneWay (c : Changes) : Prop :=
  ∀ e way way', e ∈ c.inWay way → e ∈ c.inWay way' → way = way'

/-- **Entities that are reported in one way are counted once.** -/
theorem total_eq (h : c.OneWay) : c.total = c.entities.size := by
  have hremoved : ∀ e ∈ c.added, e ∉ c.removed := fun e he he' => nomatch h e .added .removed he he'
  have hchanged : ∀ e ∈ c.added.union c.removed, e ∉ c.changed := by
    intro e he he'
    obtain he | he := SortedSet.mem_union.1 he
    · exact nomatch h e .added .changed he he'
    · exact nomatch h e .removed .changed he he'
  rw [entities, SortedSet.size_union hchanged, SortedSet.size_union hremoved, total]

end Changes

/-! ## One comparison -/

namespace Diff

variable {c i : String} {before after : Index} {old : Option Json} {new : Json} {changes : Changes}
  {cs : List String} {way : Changes.Way} {e : Entity} {s : Segment}

/-- What is reported of two indexes. -/
theorem compareIndexes_fits (h : e ∈ (compareIndexes c before after).inWay way) :
    e.collection = c ∧ way.Fits (∃ x, Json.lookup e.id before = some x)
      (∃ y, Json.lookup e.id after = some y) := by
  obtain ⟨d, i⟩ := e
  cases way with
  | added | removed => exact mem_select_lookup.1 h
  | changed =>
    simp only [Changes.inWay, compareIndexes, mem_select] at h
    obtain ⟨hc, y, hy, hdiffer⟩ := h
    refine ⟨hc, ?_, exists_mem_iff_lookup.1 ⟨y, hy⟩⟩
    cases hx : Json.lookup i before with
    | none => simp [hx] at hdiffer
    | some x => exact ⟨x, rfl⟩

/-- What is reported of two payloads. -/
theorem Exact.fits (h : Exact old new cs changes) (he : e ∈ changes.inWay way) :
    e.collection ∈ cs ∧ way.Fits (∃ x, Entry old e.collection e.id x)
      (∃ y, Entry (some new) e.collection e.id y) := by
  cases way with
  | added => exact (h.added ..).1 he
  | removed => exact (h.removed ..).1 he
  | changed =>
    obtain ⟨hc, x, y, hx, hy, -⟩ := (h.changed ..).1 he
    exact ⟨hc, ⟨x, hx⟩, y, hy⟩

theorem exists_of_diffBundle (h : diffBundle old new = .ok changes) :
    ∃ before after, changes = compareIndexes bundleCollection before after := by
  unfold diffBundle at h
  cases hnew : membersOf .newBundle new with
  | error => simp [hnew, bind, Except.bind] at h
  | ok after =>
    cases old with
    | none =>
      simp only [hnew, bind, Except.bind, pure, Except.pure, Except.ok.injEq] at h
      exact ⟨[], after, h.symm⟩
    | some value =>
      cases hold : membersOf .oldBundle value with
      | error => simp [hnew, hold, bind, Except.bind] at h
      | ok before =>
        simp only [hnew, hold, bind, Except.bind, pure, Except.pure, Except.ok.injEq] at h
        exact ⟨before, after, h.symm⟩

/-- What is reported of a segment is in its own collections. -/
theorem mem_owned_of_mentions (h : diff old new s = .ok changes) (he : changes.Mentions e) :
    e.collection ∈ s.owned := by
  cases start old new with
  | objects old_eq new_eq diff_eq => exact mem_of_mentions ((diff_eq s).symm.trans h) he
  | refused why diff_eq =>
    rw [diff_eq] at h
    cases h

end Diff

theorem Segment.bundleCollection_not_mem (s : Segment) : Diff.bundleCollection ∉ s.owned := by
  cases s <;> decide +kernel

theorem Segment.eq_full_or_mem_parts (s : Segment) : s = .full ∨ s ∈ parts := by
  cases s <;> decide

theorem Segment.mem_owned_full {s : Segment} (hs : s ∈ parts) {c : String} (hc : c ∈ s.owned) :
    c ∈ full.owned := by
  rw [owned_full]
  exact List.mem_flatMap.2 ⟨s, hs, hc⟩

/-- Of two segments that own a collection one is game data in full. -/
theorem Segment.full_and_part {s s' : Segment} (hne : s ≠ s') {c : String} (hc : c ∈ s.owned)
    (hc' : c ∈ s'.owned) : (s = .full ∧ s' ∈ parts) ∨ (s' = .full ∧ s ∈ parts) := by
  obtain rfl | hs := s.eq_full_or_mem_parts
  · exact .inl ⟨rfl, s'.eq_full_or_mem_parts.resolve_left hne.symm⟩
  · obtain rfl | hs' := s'.eq_full_or_mem_parts
    · exact .inr ⟨rfl, hs⟩
    · exact absurd hc' (disjoint_owned s hs s' hs' hne c hc)

namespace Engine

open Program

variable {p : SyncPolicy} {trigger : Trigger} {t : List Moment} {epoch : Epoch} {r : KindReport}
  {x y : TargetReport} {changes part : Changes} {old new : Json} {s : Segment} {cached : Segment → Bool}
  {e : Entity} {way way' : Changes.Way}

/-! ## The targets of an epoch -/

/-- Every target is reported once. -/
theorem Run.eq_of_target (run : Run p trigger t (.ended epoch)) (hx : x ∈ epoch.targets)
    (hy : y ∈ epoch.targets) (htarget : x.target = y.target) : x = y := by
  obtain ⟨r, hr, hx⟩ := List.mem_flatMap.1 hx
  have hy := run.mem_targets_of_kind hr hy (htarget ▸ run.kind_of_mem hr hx)
  have hnodup : (r.targets.map (·.target)).Nodup := by
    rw [run.map_target_of_mem hr]
    refine List.Nodup.filter _ (List.Nodup.sublist (run.selected_sublist.trans p.targets_sublist) ?_)
    exact FetchTarget.pairwise_all.imp fun {a b} hlt heq => absurd (heq ▸ hlt) (Nat.lt_irrefl _)
  exact List.inj_on_of_nodup_map hnodup hx hy htarget

theorem compare_localization_eq_known_iff {baseline : Option Json} :
    compare .localization baseline new = .known changes ↔ Diff.diffBundle baseline new = .ok changes := by
  unfold compare
  cases Diff.diffBundle baseline new <;> simp

/-- Who has told of an entity: the collection of the bundle tells of localization, all others of game
data. -/
theorem Run.teller_of_mem (run : Run p trigger t (.ended epoch)) (he : e ∈ epoch.changes.inWay way) :
    ∃ x ∈ epoch.targets, ∃ changes, x.comparison = some (.known changes) ∧ e ∈ changes.inWay way ∧
      (x.target = .localization ↔ e.collection = Diff.bundleCollection) := by
  rw [run.changes_eq.1, Epoch.mem_knownChanges] at he
  obtain ⟨x, hx, changes, hc, he⟩ := he
  refine ⟨x, hx, changes, hc, he, ?_⟩
  obtain ⟨r, hr, hx⟩ := List.mem_flatMap.1 hx
  obtain ⟨baseline, payload, hcompare, -, -⟩ := run.compared_with hr hx hc
  cases htarget : x.target with
  | localization =>
    rw [htarget, compare_localization_eq_known_iff] at hcompare
    obtain ⟨before, after, rfl⟩ := Diff.exists_of_diffBundle hcompare
    exact iff_of_true rfl (Diff.compareIndexes_fits he).1
  | gameData s =>
    rw [htarget, compare_gameData_eq_known_iff] at hcompare
    refine iff_of_false nofun fun hbundle => s.bundleCollection_not_mem ?_
    exact hbundle ▸ Diff.mem_owned_of_mentions hcompare ⟨way, he⟩

/-- What is reported of the localization bundle is reported in one way. -/
theorem Run.way_unique_of_bundle (run : Run p trigger t (.ended epoch))
    (hbundle : e.collection = Diff.bundleCollection) (he : e ∈ epoch.changes.inWay way)
    (he' : e ∈ epoch.changes.inWay way') : way = way' := by
  obtain ⟨x, hx, changes, hc, he, htarget⟩ := run.teller_of_mem he
  obtain ⟨y, hy, changes', hc', he', htarget'⟩ := run.teller_of_mem he'
  obtain rfl := run.eq_of_target hx hy ((htarget.2 hbundle).trans (htarget'.2 hbundle).symm)
  obtain rfl : changes = changes' := by simpa using hc.symm.trans hc'
  obtain ⟨r, hr, hx⟩ := List.mem_flatMap.1 hx
  obtain ⟨baseline, payload, hcompare, -, -⟩ := run.compared_with hr hx hc
  rw [htarget.2 hbundle, compare_localization_eq_known_iff] at hcompare
  obtain ⟨before, after, rfl⟩ := Diff.exists_of_diffBundle hcompare
  exact (Diff.compareIndexes_fits he).2.unique (Diff.compareIndexes_fits he').2

/-! ## Baselines of which some are missing -/

/-- The baseline of a segment: a part of the old payload, if it is cached. -/
def baseline (cached : Segment → Bool) (old : Json) (s : Segment) : Option Json :=
  if cached s then some old else none

theorem baseline_of_cached (h : cached s = true) : baseline cached old s = some old := if_pos h

theorem baseline_of_missing (h : cached s = false) : baseline cached old s = none := by
  rw [baseline, h, if_neg Bool.false_ne_true]

/-- The payloads that were fetched for a report agree with one payload, and the baselines that were read
for it, if they were cached at all, with one old payload, each in the collections of its own segment. -/
structure PartlyCached (p : SyncPolicy) (t : List Moment) (r : KindReport) (cached : Segment → Bool)
    (old new : Json) : Prop where
  served {s : Segment} {payload : Json} :
    Brought t (.fetch (.gameData s) r.newVersion p.unzip) payload → Diff.AlikeOn s.owned payload new
  read {version : Version} {s : Segment} {found : Option Json} : r.oldVersion = some version →
    Brought t (.read (.ofGameData version s)) found →
      Option.Rel (Diff.AlikeOn s.owned) found (baseline cached old s)
  first : r.oldVersion = none → ∀ s, cached s = false

/-- What is known of a segment is what the common payload has of it, compared with its own baseline. -/
theorem PartlyCached.diff_eq (h : PartlyCached p t r cached old new)
    (run : Run p trigger t (.ended epoch)) (hr : r ∈ epoch.kinds) (hx : x ∈ r.targets)
    (htarget : x.target = .gameData s) (hc : x.comparison = some (.known changes)) :
    Diff.diff (baseline cached old s) new s = .ok changes :=
  run.diff_eq hr hx htarget hc (fun _ => h.served) (fun _ _ => h.read)
    fun hnone => baseline_of_missing (h.first hnone s)

theorem PartlyCached.exists_of_knows (h : PartlyCached p t r cached old new)
    (run : Run p trigger t (.ended epoch)) (hr : r ∈ epoch.kinds) (hknows : Knows r s) :
    ∃ part, Diff.diff (baseline cached old s) new s = .ok part ∧
      ∀ way e, e ∈ part.inWay way → e ∈ epoch.changes.inWay way := by
  obtain ⟨x, hx, htarget, changes, hc⟩ := hknows
  refine ⟨changes, h.diff_eq run hr hx htarget hc, fun way e he => ?_⟩
  rw [run.changes_eq.1, Epoch.mem_knownChanges]
  exact ⟨x, List.mem_flatMap.2 ⟨r, hr, hx⟩, changes, hc, he⟩

/-- **An entity of game data is told of by a segment that owns it.** -/
theorem PartlyCached.teller_of_mem (h : PartlyCached p t r cached old new)
    (run : Run p trigger t (.ended epoch)) (hr : r ∈ epoch.kinds) (hkind : r.kind = .gameData)
    (he : e ∈ epoch.changes.inWay way) (hbundle : e.collection ≠ Diff.bundleCollection) :
    ∃ s part, Knows r s ∧ Diff.diff (baseline cached old s) new s = .ok part ∧ e ∈ part.inWay way := by
  obtain ⟨x, hx, changes, hc, he, hteller⟩ := run.teller_of_mem he
  cases htarget : x.target with
  | localization => exact absurd (hteller.1 htarget) hbundle
  | gameData s =>
    have hx := run.mem_targets_of_kind hr hx (by rw [htarget, hkind]; rfl)
    exact ⟨s, changes, ⟨x, hx, htarget, changes, hc⟩, h.diff_eq run hr hx htarget hc, he⟩

/-! ## Entities that are reported twice -/

/-- An entity is not the same in two payloads. -/
def Altered (old new : Json) (e : Entity) : Prop :=
  ∃ x y, Diff.Entry (some old) e.collection e.id x ∧ Diff.Entry (some new) e.collection e.id y ∧
    x.structurallyEqual y = false

/-- A segment reports an entity as added though the old payload has it: the baseline was missing. -/
theorem missing_of_entry (hnot : ¬ ∃ x, Diff.Entry (baseline cached old s) e.collection e.id x)
    (hold : ∃ x, Diff.Entry (some old) e.collection e.id x) : cached s = false := by
  by_contra hcached
  rw [baseline_of_cached (by simpa using hcached)] at hnot
  exact hnot hold

theorem cached_of_entry {x : Json} (h : Diff.Entry (baseline cached old s) e.collection e.id x) :
    cached s = true := by
  by_contra hcached
  rw [baseline_of_missing (by simpa using hcached)] at h
  obtain ⟨_, hvalue, -⟩ := h
  cases hvalue

section

variable (h : PartlyCached p t r cached old new) (run : Run p trigger t (.ended epoch))
  (hr : r ∈ epoch.kinds) (hkind : r.kind = .gameData) (normal : new.Normal)

include h run hr hkind normal

/-- **What is gone is neither added nor changed.** -/
theorem PartlyCached.not_mem_of_removed (he : e ∈ epoch.changes.inWay .removed)
    (he' : e ∈ epoch.changes.inWay way) : way = .removed := by
  by_cases hbundle : e.collection = Diff.bundleCollection
  · exact run.way_unique_of_bundle hbundle he' he
  · obtain ⟨s, part, -, hpart, he⟩ := h.teller_of_mem run hr hkind he hbundle
    obtain ⟨s', part', -, hpart', he'⟩ := h.teller_of_mem run hr hkind he' hbundle
    obtain ⟨-, -, hgone⟩ := (Diff.exact_of_diff normal hpart).fits he
    obtain ⟨-, hfits⟩ := (Diff.exact_of_diff normal hpart').fits he'
    cases way with
    | removed => rfl
    | added => exact absurd hfits.1 hgone
    | changed => exact absurd hfits.2 hgone

/-- What has changed is reported as added by a segment whose baseline was missing, and as changed by one
whose baseline was cached. -/
theorem PartlyCached.added_and_changed_iff_segments :
    (e ∈ epoch.changes.added ∧ e ∈ epoch.changes.changed) ↔ ∃ s s',
      (Knows r s ∧ e.collection ∈ s.owned ∧ cached s = false) ∧
        (Knows r s' ∧ e.collection ∈ s'.owned ∧ cached s' = true) ∧ Altered old new e := by
  constructor
  · rintro ⟨hadded, hchanged⟩
    have he : e ∈ epoch.changes.inWay .added := hadded
    have he' : e ∈ epoch.changes.inWay .changed := hchanged
    have hbundle : e.collection ≠ Diff.bundleCollection := fun hbundle =>
      nomatch run.way_unique_of_bundle hbundle he he'
    obtain ⟨s, part, hs, hpart, he⟩ := h.teller_of_mem run hr hkind he hbundle
    obtain ⟨s', part', hs', hpart', he'⟩ := h.teller_of_mem run hr hkind he' hbundle
    obtain ⟨hc, -, hnot⟩ := ((Diff.exact_of_diff normal hpart).added ..).1 he
    obtain ⟨hc', x, y, hx, hy, hdiffer⟩ := ((Diff.exact_of_diff normal hpart').changed ..).1 he'
    have hcached := cached_of_entry hx
    rw [baseline_of_cached hcached] at hx
    exact ⟨s, s', ⟨hs, hc, missing_of_entry hnot ⟨x, hx⟩⟩, ⟨hs', hc', hcached⟩, x, y, hx, hy, hdiffer⟩
  · rintro ⟨s, s', ⟨hs, hc, hmissing⟩, ⟨hs', hc', hcached⟩, x, y, hx, hy, hdiffer⟩
    obtain ⟨part, hpart, hsub⟩ := h.exists_of_knows run hr hs
    obtain ⟨part', hpart', hsub'⟩ := h.exists_of_knows run hr hs'
    rw [baseline_of_missing hmissing] at hpart
    rw [baseline_of_cached hcached] at hpart'
    constructor
    · exact hsub .added e (((Diff.exact_of_diff normal hpart).of_none.1 ..).2 ⟨hc, y, hy⟩)
    · exact hsub' .changed e
        (((Diff.exact_of_diff normal hpart').changed ..).2 ⟨hc', x, y, hx, hy, hdiffer⟩)

/-- **What is both added and changed** has changed, and of the two baselines with which it was compared
one was missing. -/
theorem PartlyCached.added_and_changed_iff :
    (e ∈ epoch.changes.added ∧ e ∈ epoch.changes.changed) ↔ Knows r .full ∧ ∃ s ∈ Segment.parts,
      Knows r s ∧ e.collection ∈ s.owned ∧ cached s ≠ cached .full ∧ Altered old new e := by
  rw [h.added_and_changed_iff_segments run hr hkind normal]
  constructor
  · rintro ⟨s, s', ⟨hs, hc, hmissing⟩, ⟨hs', hc', hcached⟩, haltered⟩
    have hne : s ≠ s' := by
      rintro rfl
      cases hcached.symm.trans hmissing
    obtain ⟨rfl, hmem⟩ | ⟨rfl, hmem⟩ := Segment.full_and_part hne hc hc'
    · exact ⟨hs, s', hmem, hs', hc', by simp [hcached, hmissing], haltered⟩
    · exact ⟨hs', s, hmem, hs, hc, by simp [hcached, hmissing], haltered⟩
  · rintro ⟨hfull, s, hmem, hs, hc, hne, haltered⟩
    have hc' := Segment.mem_owned_full hmem hc
    cases hs' : cached s with
    | false => exact ⟨s, .full, ⟨hs, hc, hs'⟩, ⟨hfull, hc', by simpa [hs'] using hne.symm⟩, haltered⟩
    | true => exact ⟨.full, s, ⟨hfull, hc', by simpa [hs'] using hne.symm⟩, ⟨hs, hc, hs'⟩, haltered⟩

/-- Where the baselines are cached alike, nothing is reported twice. -/
theorem PartlyCached.oneWay (halike : ∀ s ∈ Segment.parts, Knows r .full → Knows r s →
    cached s = cached .full) : epoch.changes.OneWay := by
  have hnever (e : Entity) : ¬ (e ∈ epoch.changes.added ∧ e ∈ epoch.changes.changed) := by
    rw [h.added_and_changed_iff run hr hkind normal]
    rintro ⟨hfull, s, hmem, hs, -, hne, -⟩
    exact hne (halike s hmem hfull hs)
  intro e way way' he he'
  cases way with
  | removed => exact (h.not_mem_of_removed run hr hkind normal he he').symm
  | added =>
    cases way' with
    | added => rfl
    | removed => exact h.not_mem_of_removed run hr hkind normal he' he
    | changed => exact absurd ⟨he, he'⟩ (hnever e)
  | changed =>
    cases way' with
    | changed => rfl
    | removed => exact h.not_mem_of_removed run hr hkind normal he' he
    | added => exact absurd ⟨he', he⟩ (hnever e)

end

/-- **When an epoch reports an entity twice.** Every payload of game data that is fetched agrees, as far
as its segment goes, with one new payload, and every baseline is missing or agrees with one old payload.
What is removed is then neither added nor changed. What is added and changed at once has changed, and it
was compared in full and in a part, with one baseline that was cached and another one that was missing, so
that everything counted as added there. If of the segments that were compared each part had its baseline
cached just when game data in full had, every entity is reported in one way, and the total counts each of
them once. -/
theorem Run.reported_twice_iff (run : Run p trigger t (.ended epoch)) (hr : r ∈ epoch.kinds)
    (hkind : r.kind = .gameData) (h : PartlyCached p t r cached old new) (normal : new.Normal) :
    (∀ e ∈ epoch.changes.removed, e ∉ epoch.changes.added ∧ e ∉ epoch.changes.changed) ∧
    (∀ e, (e ∈ epoch.changes.added ∧ e ∈ epoch.changes.changed) ↔ Knows r .full ∧
      ∃ s ∈ Segment.parts, Knows r s ∧ e.collection ∈ s.owned ∧ cached s ≠ cached .full ∧
        Altered old new e) ∧
    ((∀ s ∈ Segment.parts, Knows r .full → Knows r s → cached s = cached .full) →
      epoch.changes.OneWay ∧ epoch.changes.total = epoch.changes.entities.size) := by
  have hremoved {e : Entity} {way : Changes.Way} (he : e ∈ epoch.changes.removed)
      (he' : e ∈ epoch.changes.inWay way) : way = .removed :=
    h.not_mem_of_removed run hr hkind normal he he'
  refine ⟨fun e he => ⟨fun hadded => ?_, fun hchanged => ?_⟩,
    fun e => h.added_and_changed_iff run hr hkind normal, fun halike => ?_⟩
  · have he' : e ∈ epoch.changes.inWay .added := hadded
    exact nomatch hremoved he he'
  · have he' : e ∈ epoch.changes.inWay .changed := hchanged
    exact nomatch hremoved he he'
  · have honeWay := h.oneWay run hr hkind normal halike
    exact ⟨honeWay, Changes.total_eq honeWay⟩

/-! ## An epoch in which a unit has changed -/

/-- Game data with some collections, of which all but one are empty. -/
def unitAmong (collections : SortedSet String) (power : Nat) : Json :=
  .object (collections.toList.map fun c =>
    (c, if c = "units" then .object [("REY", .natural power)] else .null))

theorem normal_unitAmong (collections : SortedSet String) (power : Nat) :
    (unitAmong collections power).Normal := by
  constructor
  · exact List.pairwise_map.2 (collections.increasing.imp compare_lt_iff_lt.1)
  · refine Json.normalMembers_iff.2 fun m hm => ?_
    obtain ⟨c, -, rfl⟩ := List.mem_map.1 hm
    dsimp only
    split
    · exact ⟨List.pairwise_singleton .., trivial, trivial⟩
    · trivial

/-- Game data with a unit of some power. -/
def unitOfPower (power : Nat) : Json := unitAmong (.ofList Segment.full.owned) power

/-- The second version of game data comes, and of the first one some baselines are cached. -/
def Conduct.unitAltered (cached : Segment → Bool) : Conduct :=
  (Conduct.smooth ⟨⟨"2"⟩, ⟨"1"⟩⟩ ⟨some ⟨"1"⟩, some ⟨"1"⟩⟩ (unitOfPower 7) fun _ => false).holding
    fun key => if Segment.all.any (fun s => cached s && key == .ofGameData ⟨"1"⟩ s)
      then some (unitOfPower 6) else none

/-- Where nothing goes wrong, reads bring the baselines that are cached. -/
theorem Conduct.partlyCached_of_conforms (hversion : r.oldVersion = some ⟨"1"⟩)
    (ht : ∀ x ∈ t, (Conduct.unitAltered cached).Conforms x) :
    PartlyCached .default t r cached (unitOfPower 6) (unitOfPower 7) where
  served hb := by
    obtain rfl := Conduct.eq_of_conforms ht hb rfl (fun _ => rfl) fun _ => rfl
    exact .objects fun _ _ => rfl
  read := by
    intro version s found hsome hb
    obtain rfl : ⟨"1"⟩ = version := Option.some.inj (hversion.symm.trans hsome)
    have hheld : Segment.all.any (fun s' => cached s' &&
        CacheKey.ofGameData ⟨"1"⟩ s == .ofGameData ⟨"1"⟩ s') = cached s := by
      have hkeys : ∀ s s' : Segment,
          (CacheKey.ofGameData ⟨"1"⟩ s == .ofGameData ⟨"1"⟩ s') = decide (s = s') := fun s s' => by
        cases s <;> cases s' <;> decide
      simp only [hkeys]
      cases s <;> simp [Segment.all]
    obtain rfl : found = baseline cached (unitOfPower 6) s := by
      rw [baseline, ← hheld]
      exact Conduct.eq_of_conforms ht hb rfl (fun _ => rfl) fun _ => rfl
    rw [baseline]
    split
    · exact .some (.objects fun _ _ => rfl)
    · exact .none
  first hnone := by
    rw [hversion] at hnone
    cases hnone

/-- All baselines are cached: in full and in its part, the unit has changed. -/
theorem Run.reported_twice_iff_cached :
    ∃ t epoch r, Run .default .scheduled t (.ended epoch) ∧ r ∈ epoch.kinds ∧ r.kind = .gameData ∧
      PartlyCached .default t r (fun _ => true) (unitOfPower 6) (unitOfPower 7) ∧
      (Knows r .full ∧ ∀ s ∈ Segment.parts, Knows r s) ∧
      epoch.changes.entities.toList = [⟨"units", "REY"⟩] ∧ epoch.changes.total = 1 := by
  let o := Conduct.unitAltered fun _ => true
  let played := o.play .default .scheduled false
  have run : Run .default .scheduled played.history (.ended played.result) := Conduct.play_run false
  have hconforms : ∀ x ∈ played.history, o.Conforms x := Conduct.play_conforms fun _ => rfl
  have hresult : played.result.kinds.map (fun r => (r.kind, r.oldVersion,
        decide (Knows r .full ∧ ∀ s ∈ Segment.parts, Knows r s))) = [(.gameData, some ⟨"1"⟩, true)] ∧
      played.result.changes.entities.toList = [⟨"units", "REY"⟩] := by
    decide +kernel
  obtain ⟨hkinds, hentities⟩ := hresult
  obtain ⟨r, hr, heq⟩ := List.mem_map.1 (hkinds ▸ List.mem_cons_self)
  simp only [Prod.mk.injEq, decide_eq_true_eq] at heq
  obtain ⟨hkind, hold, hknows⟩ := heq
  have hpartly := Conduct.partlyCached_of_conforms hold hconforms
  obtain ⟨-, -, honce⟩ := Run.reported_twice_iff run hr hkind hpartly (normal_unitAmong _ 7)
  refine ⟨_, _, r, run, hr, hkind, hpartly, hknows, hentities, ?_⟩
  rw [(honce fun _ _ _ _ => rfl).2, SortedSet.size, hentities]
  rfl

/-- Only the baseline of the part is cached: in full the unit is added, and in its part it has changed. -/
theorem Run.counted_twice :
    ∃ t epoch r, Run .default .scheduled t (.ended epoch) ∧ r ∈ epoch.kinds ∧ r.kind = .gameData ∧
      r.oldVersion = some ⟨"1"⟩ ∧ r.newVersion = ⟨"2"⟩ ∧
      PartlyCached .default t r (fun s => s = .units) (unitOfPower 6) (unitOfPower 7) ∧
      epoch.changes.added.toList = [⟨"units", "REY"⟩] ∧
      epoch.changes.changed.toList = [⟨"units", "REY"⟩] ∧
      epoch.changes.entities.toList = [⟨"units", "REY"⟩] ∧ epoch.changes.total = 2 := by
  let o := Conduct.unitAltered fun s => s = .units
  let played := o.play .default .scheduled false
  have run : Run .default .scheduled played.history (.ended played.result) := Conduct.play_run false
  have hconforms : ∀ x ∈ played.history, o.Conforms x := Conduct.play_conforms fun _ => rfl
  have hresult : played.result.kinds.map (fun r => (r.kind, r.oldVersion, r.newVersion)) =
        [(.gameData, some ⟨"1"⟩, ⟨"2"⟩)] ∧
      played.result.changes.added.toList = [⟨"units", "REY"⟩] ∧
      played.result.changes.changed.toList = [⟨"units", "REY"⟩] ∧
      played.result.changes.entities.toList = [⟨"units", "REY"⟩] ∧ played.result.changes.total = 2 := by
    decide +kernel
  obtain ⟨hkinds, hchanges⟩ := hresult
  obtain ⟨r, hr, heq⟩ := List.mem_map.1 (hkinds ▸ List.mem_cons_self)
  simp only [Prod.mk.injEq] at heq
  obtain ⟨hkind, hold, hnew⟩ := heq
  exact ⟨_, _, r, run, hr, hkind, hold, hnew, Conduct.partlyCached_of_conforms hold hconforms, hchanges⟩

end Engine

end ContentSync
