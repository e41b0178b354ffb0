import ContentSync.Epoch.Record
import ContentSync.Proofs.Diff.Grouping
import ContentSync.Proofs.Diff.Parts

/-!
# What an epoch collects

A finished epoch tells of all changes that are known of its targets, and of the targets whose changes are
not known. Changes that are reported twice count once, so neither the order of the reports nor how they
are grouped tells anything, and of what was added or changed each id is listed once.

* `Epoch.Knows` — the changes that are known of one of the targets;
* `Epoch.mem_knownChanges` — the changes of several targets;
* `Epoch.Collected` / `Epoch.finalize_collected` — what a finished epoch tells;
* `Changes.Told` / `Changes.touched_told` — how the ids of what was added or changed are told;
* `Changes.touched_eq_iff` — only the union of both is told;
* `Epoch.collects` — all of this, and the laws of merging that it rests on.
-/

set_option autoImplicit false

namespace ContentSync

/-! ## Reports of targets -/

/-- The changes of a target, if they are known. -/
def TargetReport.known? (x : TargetReport) : Option Changes :=
  match x.comparison with
  | some (.known changes) => some changes
  | _ => none

/-- The comparison failed. -/
def TargetReport.isUnknown (x : TargetReport) : Bool :=
  match x.comparison with
  | some (.unknown _) => true
  | _ => false

theorem TargetReport.known?_eq_some {x : TargetReport} {changes : Changes} :
    x.known? = some changes ↔ x.comparison = some (.known changes) := by
  unfold known?
  split
  · next heq => simp [heq]
  · next hother => simpa using hother changes

theorem TargetReport.isUnknown_iff {x : TargetReport} :
    x.isUnknown = true ↔ ∃ reason, x.comparison = some (.unknown reason) := by
  unfold isUnknown
  split
  · next heq => simp [heq]
  · next hother => simpa using hother

namespace Epoch

variable {targets : List TargetReport} {way : Changes.Way} {x : Entity}

/-- Changes are known of one of the targets. -/
def Knows (e : Epoch) (changes : Changes) : Prop :=
  ∃ t ∈ e.targets, t.comparison = some (.known changes)

theorem knownChanges_eq (targets : List TargetReport) :
    knownChanges targets = (targets.filterMap TargetReport.known?).foldl Changes.merge .none := by
  rw [knownChanges, List.foldl_filterMap]
  refine List.foldl_ext _ _ _ fun total t _ => ?_
  obtain ⟨target, attempts, error, _ | _ | _⟩ := t <;> rfl

/-- **The union of what is known of several targets.** -/
theorem mem_knownChanges :
    x ∈ (knownChanges targets).inWay way ↔
      ∃ t ∈ targets, ∃ changes, t.comparison = some (.known changes) ∧ x ∈ changes.inWay way := by
  rw [knownChanges_eq, Changes.mem_foldl_merge]
  simp only [Changes.not_mem_inWay_none, false_or, List.mem_filterMap, TargetReport.known?_eq_some]
  constructor
  · rintro ⟨changes, ⟨t, ht, hknown⟩, hx⟩
    exact ⟨t, ht, changes, hknown, hx⟩
  · rintro ⟨t, ht, changes, hknown, hx⟩
    exact ⟨changes, ⟨t, ht, hknown⟩, hx⟩

/-- Targets can be taken group by group. -/
theorem knownChanges_flatten (groups : List (List TargetReport)) :
    knownChanges groups.flatten = (groups.map knownChanges).foldl Changes.merge .none := by
  refine Changes.ext_inWay fun way x => ?_
  simp only [mem_knownChanges, Changes.mem_foldl_merge, Changes.not_mem_inWay_none, false_or,
    List.mem_map, List.mem_flatten]
  constructor
  · rintro ⟨t, ⟨group, hgroup, ht⟩, changes, hknown, hx⟩
    exact ⟨_, ⟨group, hgroup, rfl⟩, mem_knownChanges.2 ⟨t, ht, changes, hknown, hx⟩⟩
  · rintro ⟨_, ⟨group, hgroup, rfl⟩, hx⟩
    obtain ⟨t, ht, hx⟩ := mem_knownChanges.1 hx
    exact ⟨t, ⟨group, hgroup, ht⟩, hx⟩

theorem unknownTargets_eq (targets : List TargetReport) :
    unknownTargets targets = (targets.filter TargetReport.isUnknown).map (·.target) := by
  rw [unknownTargets]
  induction targets with
  | nil => rfl
  | cons t targets ih =>
    rw [List.filterMap_cons, List.filter_cons, ih]
    obtain ⟨target, attempts, error, _ | _ | _⟩ := t <;> rfl

theorem mem_unknownTargets {target : FetchTarget} : target ∈ unknownTargets targets ↔
    ∃ t ∈ targets, t.target = target ∧ ∃ reason, t.comparison = some (.unknown reason) := by
  rw [unknownTargets_eq, List.mem_map]
  constructor
  · rintro ⟨t, ht, heq⟩
    obtain ⟨hmem, hunknown⟩ := List.mem_filter.1 ht
    exact ⟨t, hmem, heq, TargetReport.isUnknown_iff.1 hunknown⟩
  · rintro ⟨t, hmem, heq, hunknown⟩
    exact ⟨t, List.mem_filter.2 ⟨hmem, TargetReport.isUnknown_iff.2 hunknown⟩, heq⟩

/-- What a finished epoch tells of the comparisons of its targets. -/
structure Collected (e : Epoch) (now : Timestamp) : Prop where
  mem_changes (way : Changes.Way) (x : Entity) : x ∈ (e.finalize now).changes.inWay way ↔
    ∃ changes, e.Knows changes ∧ x ∈ changes.inWay way
  /-- The order, the grouping and the number of the reports do not matter. -/
  alike (e' : Epoch) (now' : Timestamp) : (∀ changes, e.Knows changes ↔ e'.Knows changes) →
    (e.finalize now).changes = (e'.finalize now').changes
  changes_grouped : (e.finalize now).changes =
    (e.kinds.map fun r => knownChanges r.targets).foldl Changes.merge .none
  mem_unknown (target : FetchTarget) : target ∈ (e.finalize now).unknownChanges ↔
    ∃ t ∈ e.targets, t.target = target ∧ ∃ reason, t.comparison = some (.unknown reason)
  /-- In the order of the reports. -/
  unknown : (e.finalize now).unknownChanges = (e.targets.filter TargetReport.isUnknown).map (·.target)
  again : (e.finalize now).collect = e.finalize now

theorem mem_changes_finalize (e : Epoch) (now : Timestamp) : x ∈ (e.finalize now).changes.inWay way ↔
    ∃ changes, e.Knows changes ∧ x ∈ changes.inWay way := by
  refine mem_knownChanges.trans ?_
  constructor
  · rintro ⟨t, ht, changes, hknown, hx⟩
    exact ⟨changes, ⟨t, ht, hknown⟩, hx⟩
  · rintro ⟨changes, ⟨t, ht, hknown⟩, hx⟩
    exact ⟨t, ht, changes, hknown, hx⟩

theorem finalize_collected (e : Epoch) (now : Timestamp) : Collected e now := by
  refine ⟨fun _ _ => mem_changes_finalize e now, fun e' now' hsame => ?_, ?_,
    fun _ => mem_unknownTargets, unknownTargets_eq e.targets, rfl⟩
  · exact Changes.ext_inWay fun way x => by simp only [mem_changes_finalize, hsame]
  · have hflat := knownChanges_flatten (e.kinds.map (·.targets))
    rwa [List.map_map, ← List.flatMap_def] at hflat

end Epoch

namespace Changes

/-! ## Ids by collection -/

/-- Only the union of what was added and what was changed is told. -/
theorem touched_eq_iff {c c' : Changes} : c.touched = c'.touched ↔
    ∀ x, x ∈ c.added ∨ x ∈ c.changed ↔ x ∈ c'.added ∨ x ∈ c'.changed := by
  constructor
  · intro h x
    have hlisted := congrArg listed h
    rw [listed_touched, listed_touched] at hlisted
    rw [← SortedSet.mem_union, ← SortedSet.mem_union, SortedSet.mem_def, SortedSet.mem_def, hlisted]
  · intro h
    have hunion : c.added.union c.changed = c'.added.union c'.changed :=
      SortedSet.ext fun x => by rw [SortedSet.mem_union, SortedSet.mem_union, h]
    rw [touched, touched, hunion]

/-- How the ids of what was added or changed are told. -/
structure Told (c : Changes) : Prop where
  /-- An id is listed once, or not at all. -/
  listed_iff (collection id : String) :
    (∃ ids, (collection, ids) ∈ c.touched ∧ ids.count id = 1) ↔
      ⟨collection, id⟩ ∈ c.added ∨ ⟨collection, id⟩ ∈ c.changed
  ordered : Ordered c.touched
  gathered : c.touched = c.gathered
  only_union (c' : Changes) : c.touched = c'.touched ↔
    ∀ x, x ∈ c.added ∨ x ∈ c.changed ↔ x ∈ c'.added ∨ x ∈ c'.changed

theorem touched_told (c : Changes) : Told c := by
  have hordered := touched_ordered c
  refine ⟨fun collection id => ?_, hordered, touched_eq_gathered c, fun _ => touched_eq_iff⟩
  have hcount : ∀ ids, (collection, ids) ∈ c.touched → (ids.count id = 1 ↔ id ∈ ids) := by
    intro ids hmem
    have hnodup : ids.Nodup := (hordered.ids _ hmem).imp ne_of_lt
    exact ⟨fun h => List.count_pos_iff.1 (by omega), List.count_eq_one_of_mem hnodup⟩
  rw [← SortedSet.mem_union, SortedSet.mem_def, ← listed_touched, mem_listed]
  constructor
  · rintro ⟨ids, hmem, hone⟩
    exact ⟨_, hmem, rfl, (hcount ids hmem).1 hone⟩
  · rintro ⟨⟨_, ids⟩, hmem, rfl, hid⟩
    exact ⟨ids, hmem, (hcount ids hmem).2 hid⟩

end Changes

/-- **The changes that an epoch tells are the union of those that are known of its targets**, and of what
was added or changed each id is told once. -/
theorem Epoch.collects :
    (∀ a b c : Changes, (a.merge b).merge c = a.merge (b.merge c)) ∧
    (∀ a b : Changes, a.merge b = b.merge a) ∧
    (∀ a : Changes, a.merge a = a ∧ a.merge .none = a ∧ Changes.none.merge a = a) ∧
    (∀ e now, Collected e now) ∧
    ∀ c, Changes.Told c :=
  ⟨Changes.merge_assoc, Changes.merge_comm,
    fun a => ⟨Changes.merge_self a, Changes.merge_none a, Changes.none_merge a⟩,
    finalize_collected, Changes.touched_told⟩

/-- One of two segments could not be compared; and the same changes with the kinds the other way round,
those of the segment reported twice. -/
theorem Epoch.collects_regrouped :
    let report (target : FetchTarget) (c : Comparison) : TargetReport := ⟨target, 1, none, some c⟩
    let hero : Changes := ⟨.ofList [⟨"units", "REY"⟩], ∅, .ofList [⟨"units", "FINN"⟩, ⟨"skill", "HEAL"⟩]⟩
    let names : Changes := ⟨∅, .ofList [⟨"localization", "MAUL"⟩], .ofList [⟨"localization", "REY"⟩]⟩
    let first : Epoch := { Epoch.start .manual ⟨0, 0⟩ with
      kinds := [⟨.gameData, some ⟨"6"⟩, ⟨"7"⟩, [report (.gameData .units) (.known hero),
          report (.gameData .campaigns) (.unknown "payload is not an object")], false, none⟩,
        ⟨.localization, some ⟨"6"⟩, ⟨"7"⟩, [report .localization (.known names)], true, none⟩] }
    let second : Epoch := { Epoch.start .manual ⟨0, 0⟩ with
      kinds := [⟨.localization, none, ⟨"7"⟩, [report .localization (.known names)], true, none⟩,
        ⟨.gameData, none, ⟨"7"⟩, [report (.gameData .full) (.known hero),
          report (.gameData .units) (.known hero)], true, none⟩] }
    (∀ changes, first.Knows changes ↔ second.Knows changes) ∧
      (first.finalize ⟨60, 0⟩).changes = (second.finalize ⟨90, 0⟩).changes ∧
      (first.finalize ⟨60, 0⟩).changes.touched =
        [("localization", ["REY"]), ("skill", ["HEAL"]), ("units", ["FINN", "REY"])] ∧
      (first.finalize ⟨60, 0⟩).unknownChanges = [.gameData .campaigns] := by
  intro report hero names first second
  have hsame : ∀ changes, first.Knows changes ↔ second.Knows changes := by
    intro changes
    simp [Epoch.Knows, Epoch.targets, first, second, report, or_comm, eq_comm]
  obtain ⟨-, -, -, hcollected, -⟩ := Epoch.collects
  exact ⟨hsame, (hcollected first ⟨60, 0⟩).alike second ⟨90, 0⟩ hsame, by decide +kernel,
    (hcollected first ⟨60, 0⟩).unknown⟩

end ContentSync
