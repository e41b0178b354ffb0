import ContentSync.Proofs.Diff.Exact

/-!
# Comparing in full and in parts

The collections of game data are owned by four segments, and all of them by the segment that is game data
in full. Comparing in full is comparing every part.

* `Changes.Way`, `Changes.inWay` — the three ways in which an entity can be reported;
* `Changes.mem_foldl_merge` — what is reported by several comparisons;
* `Incomparable.relabel` — one reason names the segment that was compared;
* `diffCollections_append`, `diffCollections_flatMap`, `diffCollections_of_first` — comparing one list of
  collections after another, and when one of them cannot be compared;
* `Segment.disjoint_owned` — no collection is owned by two parts;
* `FullOfParts` / `fullOfParts` — what the comparison in full has to do with those of the parts.
-/

set_option autoImplicit false

namespace ContentSync

namespace Changes

/-- How an entity is reported. -/
inductive Way where
  | added
  | removed
  | changed

/-- The entities that are reported in one way. -/
def inWay (c : Changes) : Way → SortedSet Entity
  | .added => c.added
  | .removed => c.removed
  | .changed => c.changed

/-- An entity is reported. -/
def Mentions (c : Changes) (e : Entity) : Prop := ∃ way, e ∈ c.inWay way

variable {a b : Changes} {way : Way} {e : Entity}

theorem mentions_iff_mem : a.Mentions e ↔ e ∈ a.added ∨ e ∈ a.removed ∨ e ∈ a.changed := by
  constructor
  · rintro ⟨way, hway⟩
    cases way with
    | added => exact .inl hway
    | removed => exact .inr (.inl hway)
    | changed => exact .inr (.inr hway)
  · rintro (hway | hway | hway)
    · exact ⟨.added, hway⟩
    · exact ⟨.removed, hway⟩
    · exact ⟨.changed, hway⟩

instance (c : Changes) (e : Entity) : Decidable (c.Mentions e) :=
  decidable_of_iff (e ∈ c.added.toList ∨ e ∈ c.removed.toList ∨ e ∈ c.changed.toList)
    mentions_iff_mem.symm

theorem ext_inWay (h : ∀ way e, e ∈ a.inWay way ↔ e ∈ b.inWay way) : a = b := by
  obtain ⟨added, removed, changed⟩ := a
  obtain ⟨added', removed', changed'⟩ := b
  obtain rfl : added = added' := SortedSet.ext (h .added)
  obtain rfl : removed = removed' := SortedSet.ext (h .removed)
  obtain rfl : changed = changed' := SortedSet.ext (h .changed)
  rfl

@[simp] theorem not_mem_inWay_none : e ∉ Changes.none.inWay way := by
  cases way <;> exact SortedSet.not_mem_empty e

@[simp] theorem mem_inWay_merge : e ∈ (a.merge b).inWay way ↔ e ∈ a.inWay way ∨ e ∈ b.inWay way := by
  cases way <;> exact SortedSet.mem_union

theorem none_merge (a : Changes) : Changes.none.merge a = a := ext_inWay (by simp)

theorem merge_none (a : Changes) : a.merge .none = a := ext_inWay (by simp)

theorem merge_assoc (a b c : Changes) : (a.merge b).merge c = a.merge (b.merge c) :=
  ext_inWay (by simp [or_assoc])

theorem merge_comm (a b : Changes) : a.merge b = b.merge a := ext_inWay (by simp [or_comm])

theorem merge_self (a : Changes) : a.merge a = a := ext_inWay (by simp)

theorem mem_foldl_merge {reports : List Changes} :
    e ∈ (reports.foldl merge a).inWay way ↔ e ∈ a.inWay way ∨ ∃ c ∈ reports, e ∈ c.inWay way := by
  induction reports generalizing a with
  | nil => simp
  | cons c reports ih => simp [ih, or_assoc]

/-- The order in which reports are merged does not matter. -/
theorem foldl_merge_eq_of_perm {l m : List Changes} (h : l.Perm m) :
    l.foldl merge .none = m.foldl merge .none :=
  ext_inWay fun way e => by simp only [mem_foldl_merge, h.mem_iff]

end Changes

/-- No collection is owned by two parts. -/
theorem Segment.disjoint_owned : ∀ s ∈ parts, ∀ s' ∈ parts, s ≠ s' → ∀ c ∈ s.owned, c ∉ s'.owned := by
  decide +kernel

namespace Diff

/-- The reason as it is told when another segment is compared. -/
def Incomparable.relabel (scope : Segment) : Incomparable → Incomparable
  | missingCollection _ collection => missingCollection scope collection
  | notObject side => notObject side
  | withoutId collection position => withoutId collection position
  | repeatedId collection id => repeatedId collection id

variable {scope scope' : Segment} {old new : Index} {c : String} {cs ds : List String}
  {changes others : Changes} {why : Incomparable}

/-! ## Several lists of collections -/

theorem indexFrom_relabel {position : Nat} {seen : Index} {items : List Json}
    (h : indexFrom c position seen items = .error why) : why.relabel scope = why := by
  induction items generalizing position seen with
  | nil => cases h
  | cons item rest ih =>
    unfold indexFrom at h
    split at h
    · cases h
      rfl
    · split at h
      · cases h
        rfl
      · exact ih h

theorem mapError_bind {ε ε' α β : Type} (x : Except ε α) (f : α → Except ε β) (g : ε → ε') :
    (x >>= f).mapError g = x.mapError g >>= fun a => (f a).mapError g := by
  cases x <;> rfl

/-- Why a collection has no index does not depend on the segment. -/
theorem mapError_index {value : Json} :
    (index c value).mapError (Incomparable.relabel scope) = index c value := by
  cases h : index c value with
  | ok => rfl
  | error why =>
    cases value with
    | array items => exact congrArg Except.error (indexFrom_relabel h)
    | null | bool | number | string | object => cases h

/-- The segment is nothing but a name. -/
theorem diffCollection_relabel (scope scope' : Segment) :
    diffCollection scope old new c =
      (diffCollection scope' old new c).mapError (Incomparable.relabel scope) := by
  unfold diffCollection
  cases Json.lookup c new with
  | none => rfl
  | some value =>
    cases Json.lookup c old with
    | none =>
      simp only [mapError_bind, mapError_index]
      rfl
    | some previous =>
      simp only [mapError_bind, mapError_index]
      rfl

theorem diffCollections_relabel (scope scope' : Segment) :
    diffCollections scope old new cs =
      (diffCollections scope' old new cs).mapError (Incomparable.relabel scope) := by
  induction cs with
  | nil => rfl
  | cons c cs ih =>
    rw [diffCollections, diffCollections, ih, diffCollection_relabel scope scope']
    simp only [mapError_bind]
    rfl

theorem diffCollections_append :
    diffCollections scope old new (cs ++ ds) = (do
      let first ← diffCollections scope old new cs
      let second ← diffCollections scope old new ds
      pure (first.merge second)) := by
  induction cs with
  | nil =>
    rw [List.nil_append, diffCollections]
    cases diffCollections scope old new ds <;>
      simp [bind, Except.bind, pure, Except.pure, Changes.none_merge]
  | cons c cs ih =>
    rw [List.cons_append, diffCollections, diffCollections, ih]
    cases diffCollection scope old new c <;> cases diffCollections scope old new cs <;>
      cases diffCollections scope old new ds <;>
      simp [bind, Except.bind, pure, Except.pure, Changes.merge_assoc]

/-- What is reported of several segments, each for itself, is reported of all of them. -/
theorem diffCollections_flatMap {segments : List Segment} {part : Segment → Changes}
    (h : ∀ s ∈ segments, diffCollections s old new s.owned = .ok (part s)) :
    diffCollections scope old new (segments.flatMap Segment.owned) =
      .ok ((segments.map part).foldl Changes.merge .none) := by
  induction segments with
  | nil => rfl
  | cons s segments ih =>
    obtain ⟨hhead, htail⟩ := List.forall_mem_cons.1 h
    have hhere : diffCollections scope old new s.owned = .ok (part s) := by
      rw [diffCollections_relabel scope s, hhead]
      rfl
    rw [List.flatMap_cons, diffCollections_append, hhere, ih htail]
    exact congrArg Except.ok (Changes.ext_inWay (by simp [Changes.mem_foldl_merge]))

/-- The reports of segments of which each can be compared. -/
theorem exists_reports {segments : List Segment} {f : Segment → Except Incomparable Changes}
    (h : ∀ s ∈ segments, ∃ part, f s = .ok part) :
    ∃ part : Segment → Changes, ∀ s ∈ segments, f s = .ok (part s) := by
  refine ⟨fun s => (f s).toOption.getD .none, fun s hs => ?_⟩
  obtain ⟨part, hpart⟩ := h s hs
  simp [hpart, Except.toOption]

/-- The first of several segments that cannot be compared says why all of them cannot be. -/
theorem diffCollections_of_first {before after : List Segment} {s : Segment}
    (hbefore : ∀ s' ∈ before, ∃ part, diffCollections s' old new s'.owned = .ok part)
    (h : diffCollections s old new s.owned = .error why) :
    diffCollections scope old new ((before ++ s :: after).flatMap Segment.owned) =
      .error (why.relabel scope) := by
  obtain ⟨part, hpart⟩ := exists_reports hbefore
  rw [List.flatMap_append, List.flatMap_cons, diffCollections_append, diffCollections_flatMap hpart,
    diffCollections_append, diffCollections_relabel scope s, h]
  rfl

/-- Of a list of computations, all succeed or there is a first one that does not. -/
theorem all_ok_or_first_error {α ε β : Type} (f : α → Except ε β) (l : List α) :
    (∀ x ∈ l, ∃ y, f x = .ok y) ∨ ∃ before x after e, l = before ++ x :: after ∧
      (∀ y ∈ before, ∃ z, f y = .ok z) ∧ f x = .error e := by
  induction l with
  | nil => exact .inl (List.forall_mem_nil _)
  | cons x l ih =>
    cases hx : f x with
    | error e => exact .inr ⟨[], x, l, e, rfl, List.forall_mem_nil _, hx⟩
    | ok y =>
      obtain hall | ⟨before, x', after, e, rfl, hbefore, he⟩ := ih
      · exact .inl (List.forall_mem_cons.2 ⟨⟨y, hx⟩, hall⟩)
      · exact .inr ⟨x :: before, x', after, e, rfl, List.forall_mem_cons.2 ⟨⟨y, hx⟩, hbefore⟩, he⟩

theorem exists_inWay_eq_select (c : String) (before after : Index) (way : Changes.Way) :
    ∃ entries p, (compareIndexes c before after).inWay way = select c entries p := by
  cases way <;> simp only [compareIndexes, Changes.inWay] <;> exact ⟨_, _, rfl⟩

/-- Entities are reported of the collections that are compared. -/
theorem mem_of_mentions (h : diffCollections scope old new cs = .ok changes) {e : Entity}
    (he : changes.Mentions e) : e.collection ∈ cs := by
  obtain ⟨way, he⟩ := he
  induction cs generalizing changes with
  | nil =>
    cases h
    exact absurd he Changes.not_mem_inWay_none
  | cons c cs ih =>
    obtain ⟨here, others, hhere, hothers, rfl⟩ := diffCollections_cons_eq_ok_iff.1 h
    obtain he | he := Changes.mem_inWay_merge.1 he
    · obtain ⟨_, before, after, -, -, -, rfl⟩ := diffCollection_eq_ok_iff.1 hhere
      obtain ⟨entries, p, heq⟩ := exists_inWay_eq_select c before after way
      rw [heq, mem_select] at he
      exact List.mem_cons.2 (.inl he.1)
    · exact List.mem_cons_of_mem _ (ih hothers he)

/-! ## Payloads -/

/-- The comparison of game data in full is the one of its parts. -/
structure FullOfParts (old : Option Json) (new : Json) : Prop where
  ok_iff : (∃ whole, diff old new .full = .ok whole) ↔
    ∀ s ∈ Segment.parts, ∃ part, diff old new s = .ok part
  /-- The reports of the parts are merged in any order. -/
  merge_eq {whole : Changes} {part : Segment → Changes} {order : List Segment}
    (whole_eq : diff old new .full = .ok whole)
    (part_eq : ∀ s ∈ Segment.parts, diff old new s = .ok (part s))
    (perm : order.Perm Segment.parts) : (order.map part).foldl Changes.merge .none = whole
  /-- No entity is reported of two parts. -/
  disjoint {s s' : Segment} {part part' : Changes} (mem : s ∈ Segment.parts)
    (mem' : s' ∈ Segment.parts) (ne : s ≠ s') (part_eq : diff old new s = .ok part)
    (part_eq' : diff old new s' = .ok part') (e : Entity) : part.Mentions e → ¬ part'.Mentions e
  /-- The first part that cannot be compared says why. -/
  error {why : Incomparable} (whole_eq : diff old new .full = .error why) :
    ∃ before s after, Segment.parts = before ++ s :: after ∧
      (∀ s' ∈ before, ∃ part, diff old new s' = .ok part) ∧
      ∃ why', diff old new s = .error why' ∧ why = why'.relabel .full

theorem Comparable.full_iff {old : Option Json} {new : Json} :
    Comparable old new Segment.full.owned ↔ ∀ s ∈ Segment.parts, Comparable old new s.owned := by
  rw [Segment.owned_full]
  constructor
  · intro h s hs
    have hsub {c : String} (hc : c ∈ s.owned) : c ∈ Segment.parts.flatMap Segment.owned :=
      List.mem_flatMap.2 ⟨s, hs, hc⟩
    exact ⟨h.new_object, h.old_object, fun c hc => h.new_indexable c (hsub hc),
      fun c hc => h.old_indexable c (hsub hc)⟩
  · intro h
    have hfirst := h .equipment List.mem_cons_self
    refine ⟨hfirst.new_object, hfirst.old_object, fun c hc => ?_, fun c hc => ?_⟩
    · obtain ⟨s, hs, hc⟩ := List.mem_flatMap.1 hc
      exact (h s hs).new_indexable c hc
    · obtain ⟨s, hs, hc⟩ := List.mem_flatMap.1 hc
      exact (h s hs).old_indexable c hc

/-- **Game data in full is the union of its parts.** -/
theorem fullOfParts (old : Option Json) (new : Json) : FullOfParts old new := by
  have ok_iff : (∃ whole, diff old new .full = .ok whole) ↔
      ∀ s ∈ Segment.parts, ∃ part, diff old new s = .ok part := by
    simp only [exists_diff_iff, Comparable.full_iff]
  cases start old new with
  | @objects before after old_eq new_eq diff_eq =>
    have hfull : diff old new .full =
        diffCollections .full before after (Segment.parts.flatMap Segment.owned) := by
      rw [diff_eq, Segment.owned_full]
    refine ⟨ok_iff, ?_, ?_, ?_⟩
    · intro whole part order hwhole hpart hperm
      rw [hfull, diffCollections_flatMap fun s hs => (diff_eq s).symm.trans (hpart s hs)] at hwhole
      cases hwhole
      exact Changes.foldl_merge_eq_of_perm (hperm.map part)
    · intro s s' part part' hs hs' hne hpart hpart' e he he'
      rw [diff_eq] at hpart hpart'
      exact Segment.disjoint_owned s hs s' hs' hne _ (mem_of_mentions hpart he)
        (mem_of_mentions hpart' he')
    · intro why hwhy
      obtain hall | ⟨first, s, rest, why', hparts, hfirst, hs⟩ :=
        all_ok_or_first_error (diff old new) Segment.parts
      · obtain ⟨whole, hwhole⟩ := ok_iff.2 hall
        cases hwhole.symm.trans hwhy
      · refine ⟨first, s, rest, hparts, hfirst, why', hs, ?_⟩
        simp only [diff_eq] at hfirst hs
        rw [hfull, hparts, diffCollections_of_first hfirst hs] at hwhy
        exact (Except.error.inj hwhy).symm
  | @refused side why diff_eq =>
    have hnever {s : Segment} {changes : Changes} (h : diff old new s = .ok changes) : False := by
      rw [diff_eq] at h
      cases h
    refine ⟨ok_iff, fun hwhole => (hnever hwhole).elim, fun _ _ _ hpart => (hnever hpart).elim, ?_⟩
    intro why hwhy
    rw [diff_eq] at hwhy
    cases hwhy
    exact ⟨[], .equipment, _, rfl, List.forall_mem_nil _, _, diff_eq .equipment, rfl⟩

/-- What is reported of game data in full is what is reported of the parts. -/
theorem FullOfParts.mem_iff {old : Option Json} {new : Json} {whole : Changes}
    (h : FullOfParts old new) (hwhole : diff old new .full = .ok whole) {way : Changes.Way}
    {e : Entity} :
    e ∈ whole.inWay way ↔
      ∃ s ∈ Segment.parts, ∃ part, diff old new s = .ok part ∧ e ∈ part.inWay way := by
  obtain ⟨part, hpart⟩ := exists_reports (h.ok_iff.1 ⟨whole, hwhole⟩)
  rw [← h.merge_eq hwhole hpart (.refl _), Changes.mem_foldl_merge]
  constructor
  · rintro (hnone | ⟨_, hmem, he⟩)
    · exact absurd hnone Changes.not_mem_inWay_none
    · obtain ⟨s, hs, rfl⟩ := List.mem_map.1 hmem
      exact ⟨s, hs, part s, hpart s hs, he⟩
  · rintro ⟨s, hs, _, heq, he⟩
    obtain rfl := Except.ok.inj ((hpart s hs).symm.trans heq)
    exact .inr ⟨part s, List.mem_map_of_mem hs, he⟩

end Diff

end ContentSync
