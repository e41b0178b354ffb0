import ContentSync.Proofs.Diff.Equality
import ContentSync.Proofs.Diff.Parts

/-!
# Comparing the other way round

What has come on the way from one payload to another one has gone on the way back, and what is not the
same on one way is not the same on the other.

* `Changes.mirror` — what has come taken for what has gone;
* `bundled` / `exact_bundled` — a localization bundle is compared like a single collection;
* `Kept` / `Exact.mentions_iff` — an entity is reported if it is not the same in both payloads;
* `Exact.mirror`, `Exact.eq_none` — the way back, and no way at all;
* `diff_mirror` — the mirror law.
-/

set_option autoImplicit false

namespace ContentSync

/-- The changes on the way back. -/
def Changes.mirror (c : Changes) : Changes := ⟨c.removed, c.added, c.changed⟩

namespace Diff

open Json (Same)

variable {c i : String} {a b x y value : Json} {cs : List String} {old : Option Json}
  {changes : Changes} {scope : Segment}

/-! ## Entities -/

theorem Holds.normal (h : Holds c value i x) (normal : value.Normal) : x.Normal := by
  cases value with
  | null => exact h.elim
  | bool | number | string => exact h.2 ▸ normal
  | array items => exact normal.of_item h.1
  | object members => exact normal.of_lookup h

theorem Entry.normal (h : Entry (some a) c i x) (normal : a.Normal) : x.Normal := by
  obtain ⟨value, hvalue, hx⟩ := h
  cases a with
  | object members => exact hx.normal (normal.of_lookup hvalue)
  | null | bool | number | string | array => cases hvalue

/-- An entity is the same in two payloads, or it is in none of them. -/
def Kept (old : Option Json) (new : Json) (c i : String) : Prop :=
  ((∃ x, Entry old c i x) ↔ ∃ y, Entry (some new) c i y) ∧
    ∀ x y, Entry old c i x → Entry (some new) c i y → Same x y

/-- **An entity of a collection that is compared is reported unless it is kept.** -/
theorem Exact.mentions_iff (h : Exact old b cs changes) :
    changes.Mentions ⟨c, i⟩ ↔ c ∈ cs ∧ ¬ Kept old b c i := by
  rw [Changes.mentions_iff_mem, h.added, h.removed, h.changed, ← and_or_left, ← and_or_left]
  refine and_congr_right fun _ => ?_
  by_cases hold : ∃ x, Entry old c i x <;> by_cases hnew : ∃ y, Entry (some b) c i y <;>
    simp [Kept, hold, hnew]

/-! ## Bundles -/

/-- A localization bundle as the only collection of a payload. -/
def bundled (bundle : Json) : Json := .object [(bundleCollection, bundle)]

theorem normal_bundled (normal : a.Normal) : (bundled a).Normal :=
  ⟨List.pairwise_singleton .., normal, trivial⟩

/-- **What is reported of two bundles.** -/
theorem exact_bundled (before : Index) {after : Index} (normal : (Json.object after).Normal) :
    Exact (some (bundled (.object before))) (bundled (.object after)) [bundleCollection]
      (compareIndexes bundleCollection before after) :=
  exact_of_diffCollection ⟨normal, trivial⟩ (rfl : diffCollection .full _ _ _ = _)

/-! ## The way back -/

/-- **On the way back everything is reported the other way round.** -/
theorem Exact.mirror (ha : a.Normal) (hb : b.Normal) (h : Exact (some a) b cs changes) :
    Exact (some b) a cs changes.mirror where
  added c i := h.removed c i
  removed c i := h.added c i
  changed c i := by
    rw [Changes.mirror, h.changed]
    refine and_congr_right fun _ => ⟨?_, ?_⟩
    · rintro ⟨x, y, hx, hy, hdiffer⟩
      rw [Json.structurallyEqual_comm (hx.normal ha) (hy.normal hb)] at hdiffer
      exact ⟨y, x, hy, hx, hdiffer⟩
    · rintro ⟨y, x, hy, hx, hdiffer⟩
      rw [Json.structurallyEqual_comm (hy.normal hb) (hx.normal ha)] at hdiffer
      exact ⟨x, y, hx, hy, hdiffer⟩

/-- **Between a payload and itself nothing has changed.** -/
theorem Exact.eq_none (ha : a.Normal)
    (indexable : ∀ c ∈ cs, ∀ value, (some a).bind (Json.field? c) = some value → Indexable value)
    (h : Exact (some a) a cs changes) : changes = .none := by
  refine Changes.ext_inWay fun way e => iff_of_false (fun he => ?_) Changes.not_mem_inWay_none
  obtain ⟨c, i⟩ := e
  obtain ⟨hc, hnot⟩ := h.mentions_iff.1 ⟨way, he⟩
  refine hnot ⟨Iff.rfl, fun x y hx hy => ?_⟩
  obtain rfl := Entry.unique (indexable c hc) hx hy
  exact .refl (hx.normal ha)

/-- **Comparing the other way round.** Structural equality has a reflection: every value equals itself,
and equality goes both ways. So what is added on the way from one payload to another one is removed on the
way back, what is removed is added, and what is changed is changed; and from a payload to itself there are
no changes. The same holds of localization bundles, which can always be compared if they are objects. -/
theorem diff_mirror :
    (∀ v : Json, v.Normal → v.structurallyEqual v = true) ∧
    (∀ v w : Json, v.Normal → w.Normal → v.structurallyEqual w = w.structurallyEqual v) ∧
    (∀ (a b : Json) (scope : Segment) (there back : Changes), a.Normal → b.Normal →
      diff (some a) b scope = .ok there → diff (some b) a scope = .ok back → back = there.mirror) ∧
    (∀ (a : Json) (scope : Segment) (changes : Changes), a.Normal →
      diff (some a) a scope = .ok changes → changes = .none) ∧
    ∀ x y : Index, (Json.object x).Normal → (Json.object y).Normal →
      diffBundle (some (.object x)) (.object x) = .ok .none ∧
      ∃ there, diffBundle (some (.object x)) (.object y) = .ok there ∧
        diffBundle (some (.object y)) (.object x) = .ok there.mirror := by
  refine ⟨fun v => Same.refl, fun v w => Json.structurallyEqual_comm, ?_, ?_, ?_⟩
  · intro a b scope there back ha hb hthere hback
    exact (exact_of_diff ha hback).eq ((exact_of_diff hb hthere).mirror ha hb)
  · intro a scope changes ha h
    exact (exact_of_diff ha h).eq_none ha (exists_diff_iff.1 ⟨changes, h⟩).old_indexable
  · intro x y hx hy
    have hsame := (exact_bundled x hx).eq_none (normal_bundled hx) ?_
    · have hmirror := (exact_bundled x hy).mirror (normal_bundled hx) (normal_bundled hy)
      exact ⟨congrArg _ hsame, _, rfl, congrArg _ ((exact_bundled y hx).eq hmirror)⟩
    · intro c hc value hvalue
      obtain rfl := List.mem_singleton.1 hc
      obtain rfl : Json.object x = value := Option.some.inj hvalue
      trivial

/-- A unit that comes on the way there goes on the way back. -/
theorem diff_mirror_units :
    let a : Json := .object [("relicTierDefinition", .null), ("units", .array
      [.object [("id", .string "REY"), ("rarity", .natural 6)], .object [("id", .string "VADER")]])]
    let b : Json := .object [("relicTierDefinition", .null), ("units", .array
      [.object [("id", .string "CAL")], .object [("id", .string "REY"), ("rarity", .natural 7)]])]
    a.Normal ∧ b.Normal ∧ ∃ there, diff (some a) b .units = .ok there ∧
      diff (some b) a .units = .ok there.mirror ∧ there.added.toList = [⟨"units", "CAL"⟩] ∧
      there.removed.toList = [⟨"units", "VADER"⟩] ∧ there.changed.toList = [⟨"units", "REY"⟩] := by
  intro a b
  have ha : a.Normal := ⟨by decide, trivial, ⟨⟨by decide, trivial, trivial, trivial⟩,
    ⟨by decide, trivial, trivial⟩, trivial⟩, trivial⟩
  have hb : b.Normal := ⟨by decide, trivial, ⟨⟨by decide, trivial, trivial⟩,
    ⟨by decide, trivial, trivial, trivial⟩, trivial⟩, trivial⟩
  obtain ⟨-, -, hmirror, -⟩ := diff_mirror
  have hthere : ∃ there, diff (some a) b .units = .ok there := ⟨_, rfl⟩
  have hback : ∃ back, diff (some b) a .units = .ok back := ⟨_, rfl⟩
  obtain ⟨there, hthere⟩ := hthere
  obtain ⟨back, hback⟩ := hback
  obtain rfl := hmirror a b .units there back ha hb hthere hback
  refine ⟨ha, hb, there, hthere, hback, ?_⟩
  cases hthere
  decide +kernel

end Diff

end ContentSync
