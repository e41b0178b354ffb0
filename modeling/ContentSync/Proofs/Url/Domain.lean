import ContentSync.Proofs.Url.Names
import Mathlib.Data.List.Forall2

/-!
# Domain names that are read again

The spelling of a domain name consists of characters of ASCII that stand for themselves. If it is read
again and is found to be a name, its spelling is the same.

* `Punycode.mem_encode` — of which characters a label in Punycode consists;
* `Domain.spelled_of_ascii` — a label of ASCII is spelled as it is;
* `Domain.isSpelled_of_ascii?` — the characters of a spelling;
* `Domain.ascii?_eq_self` — what is spelled is spelled as it is;
* `Domain.ascii?_control` — a control at the end is never lost, so that there is no spelling.
-/

set_option autoImplicit false

namespace ContentSync

theorem forall₂_of_mapM {α β : Type} {f : α → Option β} {as : List α} {bs : List β}
    (h : as.mapM f = some bs) : List.Forall₂ (fun a b => f a = some b) as bs := by
  induction as generalizing bs with
  | nil =>
    obtain rfl : bs = [] := by simpa using h.symm
    exact .nil
  | cons a rest ih =>
    rw [List.mapM_cons] at h
    obtain ⟨b, hb, h⟩ := Option.bind_eq_some_iff.1 h
    obtain ⟨bs', hrest, h⟩ := Option.bind_eq_some_iff.1 h
    cases h
    exact .cons hb (ih hrest)

theorem exists_of_forall₂ {α β : Type} {r : α → β → Prop} {as : List α} {bs : List β} {b : β}
    (h : List.Forall₂ r as bs) (hb : b ∈ bs) : ∃ a ∈ as, r a b := by
  induction h with
  | nil => cases hb
  | cons hr _ ih =>
    obtain rfl | hb := List.mem_cons.1 hb
    · exact ⟨_, List.mem_cons_self, hr⟩
    · exact (ih hb).imp fun a ha => ⟨List.mem_cons_of_mem _ ha.1, ha.2⟩

/-! ## Composed characters -/

namespace Text

variable {c : Char}

theorem lt_firstMark (hc : c.toNat < 0xC0) : c.toNat < firstMark := by
  rw [firstMark]
  omega

theorem combiningClass_eq_zero (hc : c.toNat < firstMark) : combiningClass c = 0 := if_pos hc

theorem pair?_eq_none (hc : c.toNat < firstMark) (letter : Char) : pair? letter c = none := if_pos hc

/-- A character before the first mark is not joined to a letter. -/
theorem mem_composeAfter (hc : c.toNat < firstMark) (letter : Char) (kept rest : List Char) :
    c ∈ composeAfter letter kept (rest ++ [c]) := by
  induction rest generalizing letter kept with
  | nil =>
    have hnone : ∀ reaches : Bool, (if reaches then pair? letter c else none) = none := by
      simp [pair?_eq_none hc]
    simp [composeAfter, hnone, combiningClass_eq_zero hc]
  | cons d rest ih =>
    rw [List.cons_append, composeAfter.eq_def]
    dsimp only
    split
    · exact ih _ _
    · split
      · exact List.mem_append_right _ (ih _ _)
      · exact ih _ _

theorem mem_compose_append (hc : c.toNat < firstMark) (cs : List Char) : c ∈ compose (cs ++ [c]) := by
  cases cs with
  | nil => simp [compose, composeAfter]
  | cons d rest => exact mem_composeAfter hc d [] rest

theorem decomposeChar_eq_self {n : Nat} (hn : n < 0xC0) (fuel : Nat) : decomposeChar fuel n = [n] := by
  cases fuel with
  | zero => rw [decomposeChar]
  | succ fuel => rw [decomposeChar, if_pos hn]

theorem decompose_append (hc : c.toNat < 0xC0) (cs : List Char) :
    decompose (cs ++ [c]) = decompose cs ++ [c] := by
  have hchar : (decomposeChar depth c.toNat).map Char.ofNat = [c] := by
    rw [decomposeChar_eq_self hc, List.map_singleton, Char.ofNat_toNat]
  have hmark : ∀ done, insertMark c done = c :: done := by
    intro done
    cases done with
    | nil => rfl
    | cons d rest =>
      have hclass : combiningClass c = 0 := combiningClass_eq_zero (lt_firstMark hc)
      rw [insertMark, hclass, if_neg (by simp)]
  simp only [decompose, List.flatMap_append, List.flatMap_singleton, hchar, List.foldl_append,
    List.foldl_cons, List.foldl_nil, hmark, List.reverse_cons]

/-- A character at the end that nothing can be joined to is not lost. -/
theorem mem_normalize_append (hc : c.toNat < 0xC0) (cs : List Char) : c ∈ normalize (cs ++ [c]) := by
  unfold normalize
  split
  · exact List.mem_append_right _ List.mem_cons_self
  · rw [decompose_append hc]
    exact mem_compose_append (lt_firstMark hc) _

end Text

/-! ## Punycode -/

namespace Punycode

/-- The characters that are written besides those of the label. -/
def IsWritten (c : Char) : Prop := c = '-' ∨ ∃ n < 36, c = digit n

theorem threshold_le (position bias : Nat) : threshold position bias ≤ 26 := by
  unfold threshold
  omega

theorem isWritten_of_mem_digits {bias position n : Nat} {c : Char} (h : c ∈ digits bias position n) :
    IsWritten c := by
  induction position, n using digits.induct bias with
  | case1 position n t hn =>
    have ht : t ≤ 26 := threshold_le position bias
    rw [digits, if_pos hn] at h
    obtain rfl := List.mem_singleton.1 h
    exact .inr ⟨n, by omega, rfl⟩
  | case2 position n t hn ih =>
    have ht : t ≤ 26 := threshold_le position bias
    rw [digits, if_neg hn] at h
    obtain rfl | h := List.mem_cons.1 h
    · have hmod : (n - t) % (36 - t) < 36 - t := Nat.mod_lt _ (by omega)
      exact .inr ⟨t + (n - t) % (36 - t), by omega, rfl⟩
    · exact ih h

namespace Encoder

variable {label : List Char} {basic point last : Nat} {points : List Nat} {e : Encoder} {c d : Char}

/-- An encoder only writes more. -/
theorem mem_pass : d ∈ (e.pass basic point c).written ↔
    d ∈ e.written ∨ (c.toNat = point ∧ ¬ c.toNat < point ∧ d ∈ digits e.bias 36 e.distance) := by
  unfold pass
  split
  · next h => simp [h]
  · split
    · next h h' => simp [h']
    · next h h' => simp [h']

theorem mem_foldl_pass (h : d ∈ (label.foldl (pass basic point) e).written) :
    d ∈ e.written ∨ IsWritten d := by
  induction label generalizing e with
  | nil => exact .inl h
  | cons c rest ih =>
    obtain h | h := ih h
    · exact (mem_pass.1 h).imp id fun h => isWritten_of_mem_digits h.2.2
    · exact .inr h

theorem mem_foldl_pass_of_mem (h : d ∈ e.written) : d ∈ (label.foldl (pass basic point) e).written := by
  induction label generalizing e with
  | nil => exact h
  | cons c rest ih => exact ih (mem_pass.2 (.inl h))

theorem mem_place (h : d ∈ (e.place label basic last points).written) : d ∈ e.written ∨ IsWritten d := by
  induction points generalizing e last with
  | nil => exact .inl h
  | cons point rest ih =>
    obtain h | h := ih h
    · exact mem_foldl_pass (e := { e with distance := e.distance + (point - last) * (e.placed + 1) }) h
    · exact .inr h

theorem mem_place_of_mem (h : d ∈ e.written) : d ∈ (e.place label basic last points).written := by
  induction points generalizing e last with
  | nil => exact h
  | cons point rest ih => exact ih (mem_foldl_pass_of_mem h)

end Encoder

variable {label : List Char} {c : Char}

/-- A label in Punycode consists of the ASCII characters of the label, dashes and digits. -/
theorem mem_encode (h : c ∈ encode label) : (c ∈ label ∧ c.toNat < 128) ∨ IsWritten c := by
  obtain h | h := Encoder.mem_place h
  · dsimp only at h
    split at h
    · cases h
    · obtain h | h := List.mem_append.1 h
      · exact .inl (by simpa using h)
      · exact .inr (.inl (List.mem_singleton.1 h))
  · exact .inr h

theorem mem_encode_of_ascii (hc : c ∈ label) (hascii : c.toNat < 128) : c ∈ encode label := by
  have hbasic : c ∈ label.filter fun c => c.toNat < 128 := List.mem_filter.2 ⟨hc, by simpa using hascii⟩
  refine Encoder.mem_place_of_mem ?_
  dsimp only
  split
  · next h => simp [List.isEmpty_iff.1 h] at hbasic
  · exact List.mem_append_left _ hbasic

end Punycode

namespace Domain

variable {cs label spelled name : List Char} {c : Char}

/-! ## Labels -/

/-- A character of ASCII that stands for itself. -/
def IsLower (c : Char) : Prop := c.toNat < 0x80 ∧ c.toLower = c

instance : DecidablePred IsLower := fun _ => inferInstanceAs (Decidable (_ ∧ _))

theorem fold_ascii (h : c.toNat < 0x80) : fold c = some [c.toLower] := by
  unfold fold
  exact if_pos h

theorem isLower_of_isPlain (hplain : isPlain c = true) (hascii : c.toNat < 0x80) : IsLower c := by
  rw [isPlain, fold_ascii hascii, decide_eq_true_eq] at hplain
  exact ⟨hascii, List.singleton_inj.1 (Option.some.inj hplain)⟩

theorem isLower_of_isWritten (h : Punycode.IsWritten c) : IsLower c := by
  have hdigits : ∀ n < 36, (Punycode.digit n).toNat < 0x80 ∧
      (Punycode.digit n).toLower = Punycode.digit n := by decide
  obtain rfl | ⟨n, hn, rfl⟩ := h
  · exact ⟨by decide, by decide⟩
  · exact hdigits n hn

theorem isPlain_of_label? (h : label? cs = some label) (hc : c ∈ label) : isPlain c = true := by
  unfold label? at h
  split at h
  · split at h
    · cases h
    · obtain ⟨decoded, -, h⟩ := Option.bind_eq_some_iff.1 h
      split at h
      · next hholds =>
        cases h
        exact List.all_eq_true.1 hholds.2.1 c hc
      · cases h
  · split at h
    · next hplain =>
      cases h
      exact List.all_eq_true.1 hplain c hc
    · cases h

/-- The spelling of a label consists of characters of ASCII that stand for themselves. -/
theorem isLower_of_spell? (hplain : ∀ c ∈ label, isPlain c = true) (h : spell? label = some spelled)
    (hc : c ∈ spelled) : IsLower c := by
  unfold spell? at h
  split at h
  · next hascii =>
    cases h
    exact isLower_of_isPlain (hplain c hc) (by simpa using List.all_eq_true.1 hascii c hc)
  · split at h
    · cases h
    · cases h
      obtain hc | hc := List.mem_append.1 hc
      · have hmark : ∀ c ∈ mark, c.toNat < 0x80 ∧ c.toLower = c :=
          List.all_iff_forall_prop.1 (by decide)
        exact hmark c hc
      · obtain ⟨hc, hascii⟩ | hwritten := Punycode.mem_encode hc
        · exact isLower_of_isPlain (hplain c hc) hascii
        · exact isLower_of_isWritten hwritten

/-- A label in Punycode is spelled as it is. -/
theorem spelled_of_mark (hmark : mark.isPrefixOf cs = true) (hlabel : label? cs = some label)
    (hspelled : spell? label = some spelled) : spelled = cs := by
  rw [label?, if_pos hmark] at hlabel
  split at hlabel
  · cases hlabel
  obtain ⟨decoded, -, hlabel⟩ := Option.bind_eq_some_iff.1 hlabel
  split at hlabel
  · next hholds =>
    cases hlabel
    obtain ⟨hnot, -, -, hencode⟩ := hholds
    rw [spell?, if_neg (by simpa using hnot)] at hspelled
    split at hspelled
    · cases hspelled
    · obtain ⟨rest, rfl⟩ := List.isPrefixOf_iff_prefix.1 hmark
      rw [hencode, List.drop_left] at hspelled
      exact (Option.some.inj hspelled).symm
  · cases hlabel

/-- Any other label stands for itself. -/
theorem label_of_not_mark (hmark : mark.isPrefixOf cs = false) (hlabel : label? cs = some label) :
    label = cs := by
  rw [label?, if_neg (by simp [hmark])] at hlabel
  split at hlabel
  · exact (Option.some.inj hlabel).symm
  · cases hlabel

/-- A label of ASCII is spelled as it is. -/
theorem spelled_of_ascii (hascii : isAscii cs = true) (hlabel : label? cs = some label)
    (hspelled : spell? label = some spelled) : spelled = cs := by
  cases hmark : mark.isPrefixOf cs with
  | true => exact spelled_of_mark hmark hlabel hspelled
  | false =>
    obtain rfl := label_of_not_mark hmark hlabel
    rw [spell?, if_pos hascii] at hspelled
    exact (Option.some.inj hspelled).symm

/-- A character of ASCII in a label is not lost. -/
theorem mem_spelled (hc : c ∈ cs) (hascii : c.toNat < 0x80) (hlabel : label? cs = some label)
    (hspelled : spell? label = some spelled) : c ∈ spelled := by
  cases hmark : mark.isPrefixOf cs with
  | true => rwa [spelled_of_mark hmark hlabel hspelled]
  | false =>
    obtain rfl := label_of_not_mark hmark hlabel
    unfold spell? at hspelled
    split at hspelled
    · cases hspelled
      exact hc
    · split at hspelled
      · cases hspelled
      · cases hspelled
        exact List.mem_append_right _ (Punycode.mem_encode_of_ascii hc hascii)

/-! ## Names -/

/-- How the spelling of a name comes about: its characters are folded and composed, and then its labels
are spelled one by one. -/
structure Spelling (cs name : List Char) where
  folded : List (List Char)
  found : List (List Char)
  spelled : List (List Char)
  fold_eq : cs.mapM fold = some folded
  label_eq : List.Forall₂ (fun cs label => label? cs = some label)
    (labels (Text.normalize folded.flatten)) found
  spell_eq : List.Forall₂ (fun label s => spell? label = some s) found spelled
  name_eq : name = ['.'].intercalate spelled
  allowed : ∀ c ∈ name, isForbidden c = false

theorem spelling_of_ofChars? (h : ofChars? cs = some name) : Nonempty (Spelling cs name) := by
  obtain ⟨found, hfound, h⟩ := Option.bind_eq_some_iff.1 h
  obtain ⟨spelled, hspelled, h⟩ := Option.bind_eq_some_iff.1 h
  obtain ⟨folded, hfolded, hfound⟩ := Option.bind_eq_some_iff.1 hfound
  obtain ⟨labels, hlabels, hfound⟩ := Option.bind_eq_some_iff.1 hfound
  dsimp only at h
  split at h
  · cases h
  · next hallowed =>
    split at hfound
    · cases h
      cases hfound
      exact ⟨folded, _, spelled, hfolded, forall₂_of_mapM hlabels, forall₂_of_mapM hspelled, rfl,
        fun c hc => by simpa using fun h => hallowed (List.any_eq_true.2 ⟨c, hc, h⟩)⟩
    · cases hfound

theorem mem_intercalate {l : List (List Char)} {x c : Char} (h : c ∈ [x].intercalate l) :
    c = x ∨ ∃ cs ∈ l, c ∈ cs := by
  induction l with
  | nil => simp at h
  | cons cs rest ih =>
    cases rest with
    | nil => exact .inr ⟨cs, List.mem_cons_self, by simpa using h⟩
    | cons cs' rest =>
      rw [List.intercalate_cons_cons, List.append_assoc, List.mem_append] at h
      obtain h | h := h
      · exact .inr ⟨cs, List.mem_cons_self, h⟩
      · obtain rfl | h := List.mem_cons.1 h
        · exact .inl rfl
        · exact (ih h).imp id fun ⟨cs, hcs, hc⟩ => ⟨cs, List.mem_cons_of_mem _ hcs, hc⟩

theorem mem_intercalate_of_mem {l : List (List Char)} {x c : Char} (hcs : cs ∈ l) (hc : c ∈ cs) :
    c ∈ [x].intercalate l := by
  induction l with
  | nil => cases hcs
  | cons cs' rest ih =>
    cases rest with
    | nil => simpa [List.mem_singleton.1 hcs] using hc
    | cons cs'' rest =>
      rw [List.intercalate_cons_cons, List.append_assoc, List.mem_append]
      obtain rfl | hcs := List.mem_cons.1 hcs
      · exact .inl hc
      · exact .inr (List.mem_cons_of_mem _ (ih hcs))

theorem isLower_of_mem_spelling (s : Spelling cs name) (hc : c ∈ name) : IsLower c := by
  obtain rfl | ⟨spelled, hspelled, hc⟩ := mem_intercalate (s.name_eq ▸ hc)
  · exact ⟨by decide, by decide⟩
  · obtain ⟨label, hlabel, hspell⟩ := exists_of_forall₂ s.spell_eq hspelled
    obtain ⟨cs, -, hcs⟩ := exists_of_forall₂ s.label_eq hlabel
    exact isLower_of_spell? (fun _ => isPlain_of_label? hcs) hspell hc

/-- **The spelling of a name consists of characters of ASCII that stand for themselves** and that are
allowed in a name. -/
theorem isLower_of_ascii? (h : ascii? cs = some name) (hc : c ∈ name) :
    IsLower c ∧ isForbidden c = false := by
  obtain ⟨text, -, h⟩ := Option.bind_eq_some_iff.1 h
  obtain ⟨s⟩ := spelling_of_ofChars? h
  exact ⟨isLower_of_mem_spelling s hc, s.allowed c hc⟩

theorem spelled_eq_self {ls found spelled : List (List Char)} (hascii : ∀ l ∈ ls, isAscii l = true)
    (hfound : List.Forall₂ (fun cs label => label? cs = some label) ls found)
    (hspelled : List.Forall₂ (fun label s => spell? label = some s) found spelled) : spelled = ls := by
  induction hfound generalizing spelled with
  | nil => exact List.forall₂_nil_left_iff.1 hspelled
  | cons hlabel _ ih =>
    cases hspelled with
    | cons hspell hrest =>
      rw [spelled_of_ascii (hascii _ List.mem_cons_self) hlabel hspell,
        ih (fun l hl => hascii l (List.mem_cons_of_mem _ hl)) hrest]

theorem mapM_fold_eq_self (h : ∀ c ∈ cs, IsLower c) : cs.mapM fold = some (cs.map fun c => [c]) := by
  induction cs with
  | nil => rfl
  | cons c rest ih =>
    obtain ⟨hascii, hlower⟩ := h c List.mem_cons_self
    rw [List.mapM_cons, fold_ascii hascii, hlower, ih fun d hd => h d (List.mem_cons_of_mem _ hd)]
    rfl

theorem intercalate_labels (cs : List Char) : ['.'].intercalate (labels cs) = cs := by
  rw [labels, Text.parts_eq_splitOnP, ← List.splitOn_eq_splitOnP, List.intercalate_splitOn]

/-- **What is spelled is spelled as it is.** -/
theorem ascii?_eq_self (hlower : ∀ c ∈ cs, IsLower c ∧ c ≠ '%') (h : ascii? cs = some name) :
    name = cs := by
  have hdecoded : Text.decodeText? (String.ofList cs) = some (String.ofList cs) :=
    Text.decodeText?_eq_self fun c hc => ⟨(hlower c hc).1.1, (hlower c hc).2⟩
  obtain ⟨text, htext, h⟩ := Option.bind_eq_some_iff.1 h
  obtain rfl : text = String.ofList cs := Option.some.inj (htext.symm.trans hdecoded)
  rw [String.toList_ofList] at h
  obtain ⟨s⟩ := spelling_of_ofChars? h
  have hfolded : s.folded = cs.map fun c => [c] :=
    Option.some.inj (s.fold_eq.symm.trans (mapM_fold_eq_self fun c hc => (hlower c hc).1))
  have hlabels : labels (Text.normalize s.folded.flatten) = labels cs := by
    have hflatten : (cs.map fun c => [c]).flatten = cs := by simp [← List.flatMap_def]
    rw [hfolded, hflatten, Text.normalize_eq_self]
    exact fun c hc => Text.lt_firstMark (Nat.lt_trans (hlower c hc).1.1 (by decide))
  have hascii : ∀ l ∈ labels cs, isAscii l = true := fun l hl => List.all_eq_true.2 fun c hc =>
    decide_eq_true (hlower c (Text.mem_parts hl hc).1).1.1
  rw [s.name_eq, spelled_eq_self hascii (hlabels ▸ s.label_eq) s.spell_eq, intercalate_labels]

theorem toLower_of_control (hc : c.toNat ≤ 0x20) : c.toLower = c :=
  Text.forall_ascii (p := fun c => c.toNat ≤ 0x20 → c.toLower = c) (by decide)
    (Nat.lt_of_le_of_lt hc (by decide)) hc

/-- **A control at the end is never lost**, so that there is no spelling. -/
theorem ascii?_control (hc : c.toNat ≤ 0x20) (cs : List Char) : ascii? (cs ++ [c]) = none := by
  by_contra hsome
  obtain ⟨name, h⟩ := Option.ne_none_iff_exists'.1 hsome
  obtain ⟨text, htext, h⟩ := Option.bind_eq_some_iff.1 h
  obtain ⟨front, hfront⟩ := Text.decodeText?_last hc htext
  rw [hfront] at h
  obtain ⟨s⟩ := spelling_of_ofChars? h
  have hascii : c.toNat < 0x80 := Nat.lt_of_le_of_lt hc (by decide)
  have hfold : fold c = some [c] := by
    rw [fold_ascii hascii, toLower_of_control hc]
  have hfolded : ∃ folded, s.folded = folded ++ [[c]] := by
    have hmapM := s.fold_eq
    rw [List.mapM_append] at hmapM
    obtain ⟨folded, -, hmapM⟩ := Option.bind_eq_some_iff.1 hmapM
    rw [List.mapM_cons, hfold] at hmapM
    exact ⟨folded, (Option.some.inj hmapM).symm⟩
  obtain ⟨folded, hfolded⟩ := hfolded
  have hmem : c ∈ Text.normalize s.folded.flatten := by
    rw [hfolded, List.flatten_append, List.flatten_singleton]
    exact Text.mem_normalize_append (Nat.lt_trans hascii (by decide)) _
  have hlabel : ∃ l ∈ labels (Text.normalize s.folded.flatten), c ∈ l := by
    rw [← intercalate_labels (Text.normalize s.folded.flatten)] at hmem
    obtain rfl | hmem := mem_intercalate hmem
    · exact absurd hc (by decide)
    · exact hmem
  obtain ⟨l, hl, hcl⟩ := hlabel
  obtain ⟨found, hfound, hlabel⟩ := exists_of_forall₂ s.label_eq.flip hl
  obtain ⟨spelled, hspelled, hspell⟩ := exists_of_forall₂ s.spell_eq.flip hfound
  have hcs : c ∈ spelled := mem_spelled hcl hascii hlabel hspell
  have hname : c ∈ name := s.name_eq ▸ mem_intercalate_of_mem hspelled hcs
  exact absurd (s.allowed c hname) (by simp [isForbidden, hc])

end Domain

end ContentSync
