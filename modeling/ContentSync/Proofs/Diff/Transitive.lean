import ContentSync.Proofs.Diff.Mirror

/-!
# From one version over another one to a third

Structural equality is transitive as long as ids tell elements apart. The two zeros of the floats do not:
they are the same number, but not the same text. Two elements that have them for ids are told apart by
their ids in one array, while in an equal one they may have one id between them and be compared by their
places. So from equal to equal the first array and the last one can come apart, unless one of
the three values is plain.

* `Json.Plain` — no zeros stand beside each other in an array;
* `Json.indexable_all_or_alone` — where two of three equal arrays have ids of their own, so has the third;
* `Json.Same.trans` — equality is transitive over plain values;
* `Diff.Kept.trans` — an entity that stays the same twice is the same at the end;
* `Diff.transitive_of_plain` — both, and the same for localization bundles;
* `Diff.not_transitive_zeros` — where zeros do stand beside each other.
-/

set_option autoImplicit false

namespace ContentSync

namespace Json

variable {a b c v w : Json} {x y z : List Json}

/-- No two elements have zeros for ids of which one is a floating-point zero. -/
abbrev Apart (items : List Json) : Prop := items.Pairwise fun v w => ¬ ZeroBeside v w

/-- In no array inside of a value do zeros stand beside each other. -/
inductive Plain : Json → Prop
  | null : Plain .null
  | bool (b : Bool) : Plain (.bool b)
  | number (n : Number) : Plain (.number n)
  | string (s : String) : Plain (.string s)
  | array {items : List Json} (apart : Apart items) (inside : ∀ v ∈ items, Plain v) :
    Plain (.array items)
  | object {x : List (String × Json)} (inside : ∀ m ∈ x, Plain m.2) : Plain (.object x)

theorem Plain.apart (h : Plain (.array x)) : Apart x := by
  cases h with
  | array apart inside => exact apart

theorem Plain.of_item (h : Plain (.array x)) (hv : v ∈ x) : v.Plain := by
  cases h with
  | array apart inside => exact inside v hv

theorem Plain.of_lookup {x : List (String × Json)} {k : String} (h : Plain (.object x))
    (hv : lookup k x = some v) : v.Plain := by
  cases h with
  | object inside => exact inside (k, v) (mem_of_lookup hv)

/-! ## Arrays with ids of their own -/

theorem ZeroBeside.symm (h : ZeroBeside v w) : ZeroBeside w v := ⟨h.1.symm, h.2.2, h.2.1⟩

/-- Where zeros stand beside each other in an array, they do in one with the same elements under the same
ids. -/
theorem Apart.of_same (hx : Diff.Indexable (.array x)) (hy : Diff.Indexable (.array y))
    (normal : (Json.array x).Normal) (normal' : (Json.array y).Normal)
    (h : Same (.array x) (.array y)) (apart : Apart x) : Apart y := by
  rw [same_array_iff_matched hx hy] at h
  have hback : ∀ w ∈ y, ∀ i, w.HasId i → ∃ v ∈ x, v.HasId i ∧ Same w v := by
    intro w hw i hi
    have hfound := (lookup_eq_some_iff (Diff.nodup_identified hy.2)).2 (Diff.mem_identified.2 ⟨hw, hi⟩)
    obtain ⟨v, hv⟩ := (h.exists_iff i).2 ⟨w, hfound⟩
    obtain ⟨w', hw', hvw⟩ := h.exists hv
    obtain rfl := Option.some.inj (hfound.symm.trans hw')
    obtain ⟨hmem, hid⟩ := Diff.mem_identified.1 (mem_of_lookup hv)
    exact ⟨v, hmem, hid, hvw.symm (normal.of_item hmem) (normal'.of_item hw)⟩
  refine hy.2.imp_of_mem fun {w w'} hw hw' hdistinct hbeside => ?_
  obtain ⟨hzero, ⟨i, hi, hwi⟩, j, hj, hwj⟩ := hbeside
  obtain ⟨v, hv, hvi, hwv⟩ := hback w hw i hwi
  obtain ⟨v', hv', hvj, hwv'⟩ := hback w' hw' j hwj
  have hne : v ≠ v' := by
    rintro rfl
    exact hdistinct i hwi (hvi.unique hvj ▸ hwj)
  have hsymm : Std.Symm fun v w => ¬ ZeroBeside v w := ⟨fun _ _ hnot h => hnot h.symm⟩
  exact apart.forall hv hv' hne
    ⟨hzero.imp hwv.hasZeroId hwv'.hasZeroId, ⟨i, hi, hvi⟩, j, hj, hvj⟩

section

variable (normal_x : (Json.array x).Normal) (normal_y : (Json.array y).Normal)
  (normal_z : (Json.array z).Normal) (hxy : Same (.array x) (.array y)) (hyz : Same (.array y) (.array z))
  (apart : Apart x ∨ Apart y ∨ Apart z)

include normal_x normal_y hxy hyz apart in
/-- Where the first two of three equal arrays have ids of their own, so has the last one. -/
theorem indexable_last (hx : Diff.Indexable (.array x)) (hy : Diff.Indexable (.array y)) :
    Diff.Indexable (.array z) := by
  by_contra hz
  rw [same_array_iff_forall₂ fun h => hz h.2] at hyz
  refine hz (indexable_of_forall₂ hyz hy ?_)
  obtain hapart | hapart | hapart := apart
  · exact .inl (hapart.of_same hx hy normal_x normal_y hxy)
  · exact .inl hapart
  · exact .inr hapart

include normal_y normal_z hxy hyz apart in
/-- Where the first and the last one have them, so has the one in the middle. -/
theorem indexable_middle (hx : Diff.Indexable (.array x)) (hz : Diff.Indexable (.array z)) :
    Diff.Indexable (.array y) := by
  by_contra hy
  have hzy := hyz.symm normal_y normal_z
  rw [same_array_iff_forall₂ fun h => hy h.2] at hxy hzy
  refine hy ?_
  obtain hapart | hapart | hapart := apart
  · exact indexable_of_forall₂ hxy hx (.inl hapart)
  · exact indexable_of_forall₂ hxy hx (.inr hapart)
  · exact indexable_of_forall₂ hzy hz (.inl hapart)

include normal_x normal_y normal_z hxy hyz apart in
/-- **Either all of three equal arrays have ids of their own, or no two of them.** -/
theorem indexable_all_or_alone :
    (Diff.Indexable (.array x) ∧ Diff.Indexable (.array y) ∧ Diff.Indexable (.array z)) ∨
      ¬ (Diff.Indexable (.array x) ∧ Diff.Indexable (.array y)) ∧
        ¬ (Diff.Indexable (.array y) ∧ Diff.Indexable (.array z)) ∧
          ¬ (Diff.Indexable (.array x) ∧ Diff.Indexable (.array z)) := by
  have hlast := indexable_last normal_x normal_y hxy hyz apart
  have hmiddle := indexable_middle normal_y normal_z hxy hyz apart
  -- Seen from the other end, the first array is the last one.
  have hfirst := indexable_last normal_z normal_y (hyz.symm normal_y normal_z)
    (hxy.symm normal_x normal_y) (by tauto)
  by_cases hx : Diff.Indexable (.array x) <;> by_cases hy : Diff.Indexable (.array y) <;>
    by_cases hz : Diff.Indexable (.array z) <;> simp_all

end

/-! ## Three values -/

/-- **Equality is transitive** if one of the three values is plain. -/
theorem Same.trans (normal_a : a.Normal) (normal_b : b.Normal) (normal_c : c.Normal)
    (plain : a.Plain ∨ b.Plain ∨ c.Plain) (hab : Same a b) (hbc : Same b c) : Same a c := by
  induction a using induct generalizing b c with
  | null =>
    cases hab.shape
    exact hbc
  | bool _ =>
    cases hab.shape
    exact hbc
  | string _ =>
    cases hab.shape
    exact hbc
  | number m =>
    cases hab.shape with
    | number heq =>
      cases hbc.shape with
      | number heq' => simpa [Same, structurallyEqual] using Number.same_trans heq heq'
  | array x ih =>
    cases hab.shape with
    | array _ y =>
      cases hbc.shape with
      | array _ z =>
        have hitem : ∀ v ∈ x, ∀ w ∈ y, ∀ u ∈ z, Same v w → Same w u → Same v u :=
          fun v hv w hw u hu => ih v hv (normal_a.of_item hv) (normal_b.of_item hw)
            (normal_c.of_item hu) (plain.imp (·.of_item hv) (.imp (·.of_item hw) (·.of_item hu)))
        have apart : Apart x ∨ Apart y ∨ Apart z := plain.imp Plain.apart (.imp Plain.apart Plain.apart)
        obtain ⟨hx, hy, hz⟩ | ⟨hnot_xy, hnot_yz, hnot_xz⟩ :=
          indexable_all_or_alone normal_a normal_b normal_c hab hbc apart
        · rw [same_array_iff_matched hx hy] at hab
          rw [same_array_iff_matched hy hz] at hbc
          rw [same_array_iff_matched hx hz]
          exact hab.trans hbc fun k v w u hv hw hu =>
            hitem v (Diff.mem_identified.1 (mem_of_lookup hv)).1 w
              (Diff.mem_identified.1 (mem_of_lookup hw)).1 u (Diff.mem_identified.1 (mem_of_lookup hu)).1
        · rw [same_array_iff_forall₂ hnot_xy] at hab
          rw [same_array_iff_forall₂ hnot_yz] at hbc
          rw [same_array_iff_forall₂ hnot_xz]
          obtain ⟨hlength, hsame⟩ := List.forall₂_iff_get.1 hab
          obtain ⟨hlength', hsame'⟩ := List.forall₂_iff_get.1 hbc
          refine List.forall₂_iff_get.2 ⟨hlength.trans hlength', fun n hn hn' => ?_⟩
          have hmid : n < y.length := hlength ▸ hn
          exact hitem _ (List.getElem_mem _) _ (List.getElem_mem hmid) _ (List.getElem_mem _)
            (hsame n hn hmid) (hsame' n hmid hn')
  | object x ih =>
    cases hab.shape with
    | object _ y =>
      cases hbc.shape with
      | object _ z =>
        rw [same_object_iff normal_a.nodup normal_b.nodup] at hab
        rw [same_object_iff normal_b.nodup normal_c.nodup] at hbc
        rw [same_object_iff normal_a.nodup normal_c.nodup]
        exact hab.trans hbc fun k v w u hv hw hu =>
          ih _ (mem_of_lookup hv) (normal_a.of_lookup hv) (normal_b.of_lookup hw) (normal_c.of_lookup hu)
            (plain.imp (·.of_lookup hv) (.imp (·.of_lookup hw) (·.of_lookup hu)))

end Json

namespace Diff

open Json (Same)

variable {c i : String} {old mid new : Json} {cs : List String} {e : Entity}

/-! ## Three payloads -/

/-- An entity is plain as it stands in a payload. -/
def PlainAt (payload : Json) (e : Entity) : Prop :=
  ∀ x, Entry (some payload) e.collection e.id x → x.Plain

/-- **What stays the same twice is the same at the end.** -/
theorem Kept.trans (normal_old : old.Normal) (normal_mid : mid.Normal) (normal_new : new.Normal)
    (plain : PlainAt old ⟨c, i⟩ ∨ PlainAt mid ⟨c, i⟩ ∨ PlainAt new ⟨c, i⟩) (h : Kept (some old) mid c i)
    (h' : Kept (some mid) new c i) : Kept (some old) new c i := by
  refine ⟨h.1.trans h'.1, fun x z hx hz => ?_⟩
  obtain ⟨y, hy⟩ := h.1.1 ⟨x, hx⟩
  have hplain : x.Plain ∨ y.Plain ∨ z.Plain := plain.imp (· x hx) (.imp (· y hy) (· z hz))
  exact .trans (hx.normal normal_old) (hy.normal normal_mid) (hz.normal normal_new) hplain
    (h.2 x y hx hy) (h'.2 y z hy hz)

theorem Comparable.trans (h : Comparable (some old) mid cs) (h' : Comparable (some mid) new cs) :
    Comparable (some old) new cs :=
  ⟨h'.new_object, h.old_object, h'.new_indexable, h.old_indexable⟩

/-- Of a plain entity of which nothing is reported on two ways, nothing is on the way from end to end. -/
theorem Exact.not_mentions_trans {first second whole : Changes} (hfirst : Exact (some old) mid cs first)
    (hsecond : Exact (some mid) new cs second) (hwhole : Exact (some old) new cs whole)
    (normal_old : old.Normal) (normal_mid : mid.Normal) (normal_new : new.Normal)
    (plain : PlainAt old e ∨ PlainAt mid e ∨ PlainAt new e) (h : ¬ first.Mentions e)
    (h' : ¬ second.Mentions e) : ¬ whole.Mentions e := by
  obtain ⟨c, i⟩ := e
  rw [hfirst.mentions_iff] at h
  rw [hsecond.mentions_iff] at h'
  rw [hwhole.mentions_iff]
  rintro ⟨hc, hnot⟩
  simp only [hc, true_and, not_not] at h h'
  exact hnot (h.trans normal_old normal_mid normal_new plain h')

/-- **What stays the same from version to version.** Structural equality is transitive if at least one of
the three values is plain: in no array inside of it are there two elements whose ids both read like a
zero, one of them a floating-point zero. So when payloads can be compared, the first with the second and
the second with the third, then also the first with the third, and an entity of which nothing is reported
on either way is not reported from end to end, if it is plain in one of the payloads. The same holds of
localization bundles. -/
theorem transitive_of_plain :
    (∀ a b c : Json, a.Normal → b.Normal → c.Normal → a.Plain ∨ b.Plain ∨ c.Plain →
      a.structurallyEqual b = true → b.structurallyEqual c = true → a.structurallyEqual c = true) ∧
    (∀ (a b c : Json) (scope : Segment) (first second : Changes), a.Normal → b.Normal → c.Normal →
      diff (some a) b scope = .ok first → diff (some b) c scope = .ok second →
      ∃ whole, diff (some a) c scope = .ok whole ∧
        ∀ e, PlainAt a e ∨ PlainAt b e ∨ PlainAt c e → ¬ first.Mentions e → ¬ second.Mentions e →
          ¬ whole.Mentions e) ∧
    ∀ x y z : Index, (Json.object x).Normal → (Json.object y).Normal → (Json.object z).Normal →
      ∃ first second whole, diffBundle (some (.object x)) (.object y) = .ok first ∧
        diffBundle (some (.object y)) (.object z) = .ok second ∧
        diffBundle (some (.object x)) (.object z) = .ok whole ∧
        ∀ e, PlainAt (bundled (.object x)) e ∨ PlainAt (bundled (.object y)) e ∨
          PlainAt (bundled (.object z)) e → ¬ first.Mentions e → ¬ second.Mentions e →
          ¬ whole.Mentions e := by
  refine ⟨fun a b c => Same.trans, ?_, ?_⟩
  · intro a b c scope first second ha hb hc hfirst hsecond
    obtain ⟨whole, hwhole⟩ := exists_diff_iff.2
      ((exists_diff_iff.1 ⟨first, hfirst⟩).trans (exists_diff_iff.1 ⟨second, hsecond⟩))
    exact ⟨whole, hwhole, fun e => (exact_of_diff hb hfirst).not_mentions_trans (exact_of_diff hc hsecond)
      (exact_of_diff hc hwhole) ha hb hc⟩
  · intro x y z hx hy hz
    refine ⟨_, _, _, rfl, rfl, rfl, fun e => ?_⟩
    exact (exact_bundled x hy).not_mentions_trans (exact_bundled y hz) (exact_bundled x hz)
      (normal_bundled hx) (normal_bundled hy) (normal_bundled hz)

/-- A unit that stays the same while another one comes. -/
theorem transitive_of_plain_units :
    let unit (id : String) (power : Nat) : Json :=
      .object [("id", .string id), ("power", .natural power)]
    let payload (units : List Json) : Json :=
      .object [("relicTierDefinition", .null), ("units", .array units)]
    let a := payload [unit "REY" 6, unit "CAL" 7]
    let b := payload [unit "CAL" 7, unit "REY" 6]
    let c := payload [unit "CAL" 8, unit "REY" 6, unit "VADER" 5]
    (a.Normal ∧ b.Normal ∧ c.Normal) ∧ PlainAt a ⟨"units", "REY"⟩ ∧ ∃ whole,
      diff (some a) c .units = .ok whole ∧ ¬ whole.Mentions ⟨"units", "REY"⟩ ∧
        whole.Mentions ⟨"units", "CAL"⟩ ∧ whole.Mentions ⟨"units", "VADER"⟩ := by
  intro unit payload a b c
  have normal_unit (id : String) (power : Nat) : (unit id power).Normal :=
    ⟨List.pairwise_pair.2 (show "id" < "power" by decide), trivial, trivial, trivial⟩
  have normal_payload (units : List Json) (h : Json.NormalItems units) : (payload units).Normal :=
    ⟨List.pairwise_pair.2 (show "relicTierDefinition" < "units" by decide), trivial, h, trivial⟩
  have ha : a.Normal := normal_payload _ ⟨normal_unit .., normal_unit .., trivial⟩
  have hb : b.Normal := normal_payload _ ⟨normal_unit .., normal_unit .., trivial⟩
  have hc : c.Normal := normal_payload _ ⟨normal_unit .., normal_unit .., normal_unit .., trivial⟩
  have plain_unit (id : String) (power : Nat) : (unit id power).Plain :=
    .object (List.forall_mem_cons.2 ⟨.string _, List.forall_mem_singleton.2 (.number _)⟩)
  have plain : PlainAt a ⟨"units", "REY"⟩ := by
    rintro x ⟨value, hvalue, hx⟩
    obtain rfl : Json.array [unit "REY" 6, unit "CAL" 7] = value := Option.some.inj hvalue
    have hall : ∀ v ∈ [unit "REY" 6, unit "CAL" 7], v.Plain :=
      List.forall_mem_cons.2 ⟨plain_unit .., List.forall_mem_singleton.2 (plain_unit ..)⟩
    exact hall x hx.1
  obtain ⟨-, hdiff, -⟩ := transitive_of_plain
  have hfirst : ∃ first, diff (some a) b .units = .ok first ∧ ¬ first.Mentions ⟨"units", "REY"⟩ :=
    ⟨_, rfl, by decide +kernel⟩
  have hsecond : ∃ second, diff (some b) c .units = .ok second ∧ ¬ second.Mentions ⟨"units", "REY"⟩ :=
    ⟨_, rfl, by decide +kernel⟩
  obtain ⟨first, hfirst, hnot⟩ := hfirst
  obtain ⟨second, hsecond, hnot'⟩ := hsecond
  obtain ⟨whole, hwhole, hkept⟩ := hdiff a b c .units first second ha hb hc hfirst hsecond
  refine ⟨⟨ha, hb, hc⟩, plain, whole, hwhole, hkept _ (.inl plain) hnot hnot', ?_⟩
  cases hwhole
  exact ⟨by decide +kernel, by decide +kernel⟩

/-- Where two zeros stand beside each other the versions can come apart. The first and the last payload
have one zero of each sign, in two orders, so that each element is compared with the one that has its id.
The one in between has the same zero twice, and its elements are compared with those at their
places. -/
theorem not_transitive_zeros :
    let zero (negative : Bool) : Json := .number (.float negative Binary.double.zero)
    let worn (first second : Bool) : Json := .array [.object [("id", zero first), ("tier", .natural 1)],
      .object [("id", zero second), ("tier", .natural 2)]]
    let payload (worn : Json) : Json := .object [("relicTierDefinition", .null),
      ("units", .array [.object [("id", .string "REY"), ("worn", worn)]])]
    let a := worn false true
    let b := worn false false
    let c := worn true false
    (a.Normal ∧ b.Normal ∧ c.Normal) ∧ a.structurallyEqual b = true ∧ b.structurallyEqual c = true ∧
      a.structurallyEqual c = false ∧ ∃ first second whole,
        diff (some (payload a)) (payload b) .units = .ok first ∧
        diff (some (payload b)) (payload c) .units = .ok second ∧
        diff (some (payload a)) (payload c) .units = .ok whole ∧
        first.isEmpty = true ∧ second.isEmpty = true ∧ whole.changed.toList = [⟨"units", "REY"⟩] := by
  intro zero worn payload a b c
  have sorted (id tier : Json) : [("id", id), ("tier", tier)].Pairwise fun a b => a.1 < b.1 :=
    List.pairwise_pair.2 (show "id" < "tier" by decide)
  have normal (first second : Bool) : (worn first second).Normal :=
    ⟨⟨sorted .., trivial, trivial, trivial⟩, ⟨sorted .., trivial, trivial, trivial⟩, trivial⟩
  refine ⟨⟨normal .., normal .., normal ..⟩, ?_, ?_, ?_, _, _, _, rfl, rfl, rfl, ?_⟩
  all_goals decide +kernel

end Diff

end ContentSync
