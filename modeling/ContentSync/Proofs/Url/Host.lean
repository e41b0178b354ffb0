import ContentSync.Proofs.Url.Domain
import ContentSync.Url.Host
import Mathlib.Data.List.Induction

/-!
# Hosts that are read again

The host of an address is written in such a way that whoever reads it finds the same host: a domain name
in its one spelling, an address of version 4 as four numbers, and one of version 6 as groups of which a
run of zeros may be left out.

* `Host.digits?_toDigits` — a number is read from its digits;
* `Host.ipv4?_ipv4Text`, `Host.ipv6?_ipv6Text` — addresses of both versions;
* `Host.parse_text` — a host that is found in the text of another one is that one.
-/

set_option autoImplicit false

namespace ContentSync.Host

/-! ## Digits -/

variable {base n k : Nat} {cs : List Char} {c : Char}

theorem digits?_append_singleton (base : Nat) (cs : List Char) (c : Char) :
    digits? base (cs ++ [c]) = (digits? base cs).bind fun n => (digit? base c).map (base * n + ·) := by
  simp [digits?, List.foldlM_append]

/-- The value of a digit does not depend on the base, in which it must exist. -/
theorem digit?_eq_some {d : Nat} (hbase : base ≤ 16) :
    digit? base c = some d ↔ digit? 16 c = some d ∧ d < base := by
  simp only [digit?, bind, Option.bind_some, Option.bind_none]
  grind

theorem digit?_digitChar {d : Nat} (hbase : base ≤ 16) (hd : d < base) :
    digit? base d.digitChar = some d := by
  have hall : ∀ d < 16, digit? 16 d.digitChar = some d := by decide
  exact (digit?_eq_some hbase).2 ⟨hall d (by omega), hd⟩

/-- A number is read from its digits. -/
theorem digits?_toDigits (hbase : 1 < base) (hlimit : base ≤ 16) (n : Nat) :
    digits? base (Nat.toDigits base n) = some n := by
  induction n using Nat.strongRecOn with
  | ind n ih =>
    by_cases hn : n < base
    · rw [Nat.toDigits_of_lt_base hn, ← List.nil_append [_], digits?_append_singleton,
        digit?_digitChar hlimit hn]
      simp [digits?]
    · have hdiv : n / base < n := Nat.div_lt_self (by omega) hbase
      rw [Nat.toDigits_of_base_le hbase (by omega), digits?_append_singleton, ih _ hdiv,
        digit?_digitChar hlimit (Nat.mod_lt _ (by omega))]
      simp [Nat.div_add_mod]

theorem digit_of_mem_toDigits (hbase : 1 < base) (h : c ∈ Nat.toDigits base n) :
    ∃ d < base, c = d.digitChar := by
  induction n using Nat.strongRecOn with
  | ind n ih =>
    by_cases hn : n < base
    · rw [Nat.toDigits_of_lt_base hn] at h
      exact ⟨n, hn, List.mem_singleton.1 h⟩
    · rw [Nat.toDigits_of_base_le hbase (by omega)] at h
      obtain h | h := List.mem_append.1 h
      · exact ih _ (Nat.div_lt_self (by omega) hbase) h
      · exact ⟨n % base, Nat.mod_lt _ (by omega), List.mem_singleton.1 h⟩

theorem digits?_lt (hbase : base ≤ 16) (h : digits? base cs = some n) : n < base ^ cs.length := by
  induction cs using List.reverseRecOn generalizing n with
  | nil =>
    cases h
    exact Nat.one_pos
  | append_singleton rest c ih =>
    rw [digits?_append_singleton] at h
    obtain ⟨m, hm, h⟩ := Option.bind_eq_some_iff.1 h
    obtain ⟨d, hd, rfl⟩ := Option.map_eq_some_iff.1 h
    have hdigit : d < base := ((digit?_eq_some hbase).1 hd).2
    have hrest : m + 1 ≤ base ^ rest.length := ih hm
    calc base * m + d < base * (m + 1) := by rw [Nat.mul_add]; omega
      _ ≤ base * base ^ rest.length := Nat.mul_le_mul_left _ hrest
      _ = base ^ (rest ++ [c]).length := by rw [List.length_append, List.length_singleton, Nat.pow_succ']

/-! ## Version 4 -/

theorem foldl_bytes_lt {bytes : List Nat} (h : ∀ b ∈ bytes, b ≤ 255) (n : Nat) :
    bytes.foldl (fun n byte => 256 * n + byte) n < (n + 1) * 256 ^ bytes.length := by
  induction bytes generalizing n with
  | nil => simp
  | cons b rest ih =>
    have hb : b ≤ 255 := h b List.mem_cons_self
    have hrest := ih (fun c hc => h c (List.mem_cons_of_mem _ hc)) (256 * n + b)
    calc (b :: rest).foldl (fun n byte => 256 * n + byte) n
      _ < (256 * n + b + 1) * 256 ^ rest.length := hrest
      _ ≤ (n + 1) * 256 * 256 ^ rest.length := Nat.mul_le_mul_right _ (by omega)
      _ = (n + 1) * 256 ^ (b :: rest).length := by
        rw [List.length_cons, Nat.pow_succ', Nat.mul_assoc]

/-- An address has 32 bits. -/
theorem lt_of_ipv4Value? {numbers : List Nat} {address : Nat} (h : ipv4Value? numbers = some address) :
    address < 2 ^ 32 := by
  unfold ipv4Value? at h
  split at h
  · cases h
  · next last leading _ =>
    dsimp only at h
    split at h
    · cases h
    · next hfits =>
      cases h
      obtain ⟨hcount, hbytes, hlast⟩ : leading.length ≤ 3 ∧ (∀ b ∈ leading, b ≤ 255) ∧
          last < 256 ^ (4 - leading.length) := by
        simpa [not_or, Nat.not_lt, Nat.not_le] using hfits
      have hfront := foldl_bytes_lt (fun b hb => hbytes b (List.mem_reverse.1 hb)) 0
      rw [List.length_reverse, Nat.zero_add, Nat.one_mul] at hfront
      calc _ < (leading.reverse.foldl (fun n byte => 256 * n + byte) 0 + 1) *
              256 ^ (4 - leading.length) := by
            rw [Nat.add_mul, Nat.one_mul]
            exact Nat.add_lt_add_left hlast _
        _ ≤ 256 ^ leading.length * 256 ^ (4 - leading.length) := Nat.mul_le_mul_right _ hfront
        _ = 256 ^ 4 := by
            rw [← Nat.pow_add, Nat.add_sub_cancel' (by omega)]
        _ = 2 ^ 32 := by decide

/-- The parts of a text that is put together from parts. -/
theorem parts_intercalate {s : Char} {l : List (List Char)} (hl : l ≠ [])
    (h : ∀ cs ∈ l, ∀ c ∈ cs, c ≠ s) : Text.parts (· == s) ([s].intercalate l) = l := by
  rw [Text.parts_eq_splitOnP, ← List.splitOn_eq_splitOnP,
    List.splitOn_intercalate s (fun cs hcs hs => h cs hcs s hs rfl) hl]

/-- The four bytes of an address. -/
def bytes (address : Nat) : List Nat := [3, 2, 1, 0].map fun i => address / Nat.pow 256 i % 256

theorem toList_ipv4Text (address : Nat) :
    (ipv4Text address).toList = ['.'].intercalate ((bytes address).map (Nat.toDigits 10)) := by
  rw [ipv4Text, String.toList_intercalate, List.map_map]
  have hdigits : (String.toList ∘ fun i => toString (address / Nat.pow 256 i % 256)) =
      fun i => Nat.toDigits 10 (address / Nat.pow 256 i % 256) :=
    funext fun i => Nat.toList_repr
  rw [hdigits, bytes, List.map_map]
  rfl

theorem labels_ipv4Text (address : Nat) :
    Domain.labels (ipv4Text address).toList = (bytes address).map (Nat.toDigits 10) := by
  rw [toList_ipv4Text]
  refine parts_intercalate (by simp [bytes]) fun cs hcs c hc => ?_
  have hall : ∀ d < 10, d.digitChar ≠ '.' := by decide
  obtain ⟨byte, -, rfl⟩ := List.mem_map.1 hcs
  obtain ⟨d, hd, rfl⟩ := digit_of_mem_toDigits (by omega) hc
  exact hall d hd

theorem number?_toDigits {byte : Nat} (h : byte < 256) : number? (Nat.toDigits 10 byte) = some byte := by
  have hall : ∀ byte < 256, number? (Nat.toDigits 10 byte) = some byte := by decide +kernel
  exact hall byte h

theorem lt_of_mem_bytes {address byte : Nat} (h : byte ∈ bytes address) : byte < 256 := by
  obtain ⟨i, -, rfl⟩ := List.mem_map.1 h
  exact Nat.mod_lt _ (by decide)

theorem mapM_number? {numbers : List Nat} (h : ∀ n ∈ numbers, n < 256) :
    (numbers.map (Nat.toDigits 10)).mapM number? = some numbers := by
  induction numbers with
  | nil => rfl
  | cons n rest ih =>
    rw [List.map_cons, List.mapM_cons, number?_toDigits (h n List.mem_cons_self),
      ih fun m hm => h m (List.mem_cons_of_mem _ hm)]
    rfl

/-- **An address of version 4 is read from its text.** -/
theorem ipv4?_ipv4Text {address : Nat} (h : address < 2 ^ 32) :
    ipv4? (ipv4Text address).toList = some address := by
  have hlast : ((bytes address).map (Nat.toDigits 10)).getLast? ≠ some [] := by
    simp [bytes, Nat.toDigits_ne_nil]
  have hlimits : ipv4Value? (bytes address) = some address := by
    simp only [bytes, List.map_cons, List.map_nil, ipv4Value?, List.reverse_cons, List.reverse_nil,
      List.nil_append, List.cons_append, List.length_cons, List.length_nil, Nat.pow_eq]
    rw [if_neg (by simp; omega)]
    simp only [List.foldl_cons, List.foldl_nil, Option.some.injEq]
    omega
  rw [ipv4?, labels_ipv4Text, if_neg hlast, mapM_number? fun _ => lt_of_mem_bytes]
  exact hlimits

theorem endsInNumber_ipv4Text (address : Nat) : endsInNumber (ipv4Text address).toList = true := by
  have hlast : address / Nat.pow 256 0 % 256 ∈ bytes address := by simp [bytes]
  have hnumber := number?_toDigits (lt_of_mem_bytes hlast)
  obtain ⟨digit, rest, hdigits⟩ := List.exists_cons_of_ne_nil
    (Nat.toDigits_ne_nil (n := address / Nat.pow 256 0 % 256) (b := 10))
  rw [hdigits] at hnumber
  rw [endsInNumber, labels_ipv4Text]
  simp only [bytes, List.map_cons, List.map_nil, List.reverse_cons, List.reverse_nil, List.nil_append,
    List.cons_append, hdigits, hnumber, Option.isSome_some, Bool.or_true]

/-! ## Version 6 -/

/-- The groups of an address of version 6. -/
def IsGroup (n : Nat) : Prop := n < 16 ^ 4

theorem isGroup_of_group? (h : group? cs = some n) : IsGroup n := by
  unfold group? at h
  split at h
  · next hlength =>
    calc n < 16 ^ cs.length := digits?_lt (by omega) h
      _ ≤ 16 ^ 4 := Nat.pow_le_pow_right (by omega) hlength.2
  · cases h

theorem le_of_byte? (h : byte? cs = some n) : n ≤ 255 := by
  unfold byte? at h
  split at h
  · cases h
  · cases h
  · split at h
    · simpa using (Option.filter_eq_some_iff.1 h).2
    · cases h

theorem isGroup_of_tail? {groups : List Nat} (h : tail? cs = some groups) : ∀ g ∈ groups, IsGroup g := by
  obtain ⟨bytes, hbytes, h⟩ := Option.bind_eq_some_iff.1 h
  have hle : ∀ b ∈ bytes, b ≤ 255 := fun b hb =>
    let ⟨_, _, hbyte⟩ := exists_of_forall₂ (forall₂_of_mapM hbytes) hb
    le_of_byte? hbyte
  split at h
  · next a b c d =>
    cases h
    have hfour : a ≤ 255 ∧ b ≤ 255 ∧ c ≤ 255 ∧ d ≤ 255 := by simpa using hle
    refine List.forall_mem_cons.2 ⟨?_, List.forall_mem_singleton.2 ?_⟩
    · unfold IsGroup
      omega
    · unfold IsGroup
      omega
  · cases h

theorem isGroup_of_mapM {l : List (List Char)} {groups : List Nat} (h : l.mapM group? = some groups) :
    ∀ g ∈ groups, IsGroup g := fun _ hg =>
  let ⟨_, _, hgroup⟩ := exists_of_forall₂ (forall₂_of_mapM h) hg
  isGroup_of_group? hgroup

theorem isGroup_of_groups? {atEnd : Bool} {groups : List Nat} (h : groups? atEnd cs = some groups) :
    ∀ g ∈ groups, IsGroup g := by
  unfold groups? at h
  split at h
  · cases h
    exact List.forall_mem_nil _
  · dsimp only at h
    split at h
    · cases h
      exact List.forall_mem_nil _
    · obtain ⟨front, hfront, h⟩ := Option.bind_eq_some_iff.1 h
      split at h
      · obtain ⟨tail, htail, h⟩ := Option.bind_eq_some_iff.1 h
        cases h
        exact List.forall_mem_append.2 ⟨isGroup_of_mapM hfront, isGroup_of_tail? htail⟩
      · obtain ⟨last, hlast, h⟩ := Option.bind_eq_some_iff.1 h
        cases h
        exact List.forall_mem_append.2
          ⟨isGroup_of_mapM hfront, List.forall_mem_singleton.2 (isGroup_of_group? hlast)⟩

/-- There are eight groups. -/
theorem isGroup_of_ipv6? {groups : List Nat} (h : ipv6? cs = some groups) :
    groups.length = 8 ∧ ∀ g ∈ groups, IsGroup g := by
  unfold ipv6? at h
  split at h
  · split at h
    · cases h
    · obtain ⟨hgroups, hlength⟩ := Option.filter_eq_some_iff.1 h
      exact ⟨by simpa using hlength, isGroup_of_groups? hgroups⟩
  · obtain ⟨front, hfront, h⟩ := Option.bind_eq_some_iff.1 h
    obtain ⟨back, hback, h⟩ := Option.bind_eq_some_iff.1 h
    dsimp only at h
    split at h
    · cases h
    · cases h
      refine ⟨?_, ?_⟩
      · simp only [List.length_append, List.length_replicate]
        omega
      · refine List.forall_mem_append.2 ⟨List.forall_mem_append.2 ⟨isGroup_of_groups? hfront, ?_⟩,
          isGroup_of_groups? hback⟩
        intro g hg
        rw [List.eq_of_mem_replicate hg]
        exact Nat.pow_pos (by omega)

/-- How groups are written, without a run that is left out. -/
def groupTexts (groups : List Nat) : List (List Char) := groups.map (Nat.toDigits 16)

theorem ne_of_mem_toDigits (hc : c ∈ Nat.toDigits 16 n) : c ≠ ':' ∧ c ≠ '.' := by
  have hall : ∀ d < 16, d.digitChar ≠ ':' ∧ d.digitChar ≠ '.' := by decide
  obtain ⟨d, hd, rfl⟩ := digit_of_mem_toDigits (by omega) hc
  exact hall d hd

theorem group?_toDigits (h : IsGroup n) : group? (Nat.toDigits 16 n) = some n := by
  have hlength : (Nat.toDigits 16 n).length ≤ 4 := (Nat.length_toDigits_le_iff (by omega) (by omega)).2 h
  rw [group?, if_pos ⟨Nat.length_toDigits_pos, hlength⟩]
  exact digits?_toDigits (by omega) (by omega) n

theorem mapM_group? {groups : List Nat} (h : ∀ g ∈ groups, IsGroup g) :
    (groupTexts groups).mapM group? = some groups := by
  induction groups with
  | nil => rfl
  | cons g rest ih =>
    have hrest := ih fun k hk => h k (List.mem_cons_of_mem _ hk)
    rw [groupTexts] at hrest
    rw [groupTexts, List.map_cons, List.mapM_cons, group?_toDigits (h g List.mem_cons_self), hrest]
    rfl

theorem intercalate_groupTexts_ne_nil {groups : List Nat} (h : groups ≠ []) :
    [':'].intercalate (groupTexts groups) ≠ [] := by
  obtain ⟨g, hg⟩ := List.exists_mem_of_ne_nil _ h
  obtain ⟨digit, hdigit⟩ := List.exists_mem_of_ne_nil _ (Nat.toDigits_ne_nil (n := g) (b := 16))
  exact List.ne_nil_of_mem (Domain.mem_intercalate_of_mem (List.mem_map_of_mem hg) hdigit)

/-- Groups are read from their text. -/
theorem groups?_text {groups : List Nat} (h : ∀ g ∈ groups, IsGroup g) (atEnd : Bool) :
    groups? atEnd ([':'].intercalate (groupTexts groups)) = some groups := by
  obtain rfl | ⟨front, last, rfl⟩ := groups.eq_nil_or_concat
  · rfl
  rw [List.concat_eq_append] at h ⊢
  have hparts : Text.parts (· == ':') ([':'].intercalate (groupTexts (front ++ [last]))) =
      groupTexts (front ++ [last]) :=
    parts_intercalate (by simp [groupTexts]) fun cs hcs c hc => by
      obtain ⟨g, -, rfl⟩ := List.mem_map.1 hcs
      exact (ne_of_mem_toDigits hc).1
  have hconcat : groupTexts (front ++ [last]) = groupTexts front ++ [Nat.toDigits 16 last] := by
    simp [groupTexts]
  have hempty : [':'].intercalate (groupTexts (front ++ [last])) ≠ [] :=
    intercalate_groupTexts_ne_nil (by simp)
  have hdot : (Nat.toDigits 16 last).contains '.' = false := by
    simpa using fun h => (ne_of_mem_toDigits h).2 rfl
  obtain ⟨hfront, hlast⟩ := List.forall_mem_append.1 h
  rw [groups?, if_neg (by simpa using hempty), hparts, hconcat]
  simp only [List.getLast?_concat, List.dropLast_concat, mapM_group? hfront, hdot,
    group?_toDigits (hlast last List.mem_cons_self), Option.bind_eq_bind, Option.bind_some]
  simp

theorem splitAtPair_append (h : ∀ c ∈ cs, c ≠ ':') (rest : List Char) :
    splitAtPair (cs ++ rest) = (splitAtPair rest).map fun p => (cs ++ p.1, p.2) := by
  induction cs with
  | nil => simp
  | cons c cs ih =>
    have hc : c ≠ ':' := h c List.mem_cons_self
    rw [List.cons_append, splitAtPair, ih fun d hd => h d (List.mem_cons_of_mem _ hd), Option.map_map]
    · rfl
    · rintro _ rfl
      exact absurd rfl hc

/-- There is no pair of colons between groups. -/
theorem splitAtPair_groups {groups : List Nat} (hgroups : groups ≠ []) (rest : List Char) :
    splitAtPair ([':'].intercalate (groupTexts groups) ++ rest) =
      (splitAtPair rest).map fun p => ([':'].intercalate (groupTexts groups) ++ p.1, p.2) := by
  induction groups with
  | nil => exact absurd rfl hgroups
  | cons g groups ih =>
    have hdigits : ∀ c ∈ Nat.toDigits 16 g, c ≠ ':' := fun c hc => (ne_of_mem_toDigits hc).1
    cases groups with
    | nil =>
      rw [groupTexts, List.map_singleton, List.intercalate_singleton]
      exact splitAtPair_append hdigits rest
    | cons g' groups =>
      -- What follows the colon starts with a digit.
      obtain ⟨digit, more, hmore⟩ := List.exists_cons_of_ne_nil (Nat.toDigits_ne_nil (n := g') (b := 16))
      have hdigit : digit ≠ ':' :=
        (ne_of_mem_toDigits (hmore ▸ List.mem_cons_self : digit ∈ Nat.toDigits 16 g')).1
      have hcolon : splitAtPair (':' :: ([':'].intercalate (groupTexts (g' :: groups)) ++ rest)) =
          (splitAtPair ([':'].intercalate (groupTexts (g' :: groups)) ++ rest)).map
            fun p => (':' :: p.1, p.2) := by
        rw [groupTexts, List.map_cons, hmore, List.intercalate_cons_cons_left, List.cons_append, splitAtPair]
        rintro _ - heq
        exact hdigit (List.cons.inj heq).1
      have hcons : [':'].intercalate (groupTexts (g :: g' :: groups)) =
          Nat.toDigits 16 g ++ ':' :: [':'].intercalate (groupTexts (g' :: groups)) := by
        rw [groupTexts, List.map_cons, List.map_cons, List.intercalate_cons_cons, List.append_assoc]
        rfl
      rw [hcons, List.append_assoc, List.cons_append, splitAtPair_append hdigits, hcolon,
        ih (List.cons_ne_nil _ _), Option.map_map, Option.map_map]
      congr 1
      funext p
      simp

theorem splitAtPair_pair (groups : List Nat) (rest : List Char) :
    splitAtPair ([':'].intercalate (groupTexts groups) ++ ':' :: ':' :: rest) =
      some ([':'].intercalate (groupTexts groups), rest) := by
  by_cases hgroups : groups = []
  · subst hgroups
    rfl
  · rw [splitAtPair_groups hgroups, splitAtPair, Option.map_some, List.append_nil]

/-- A run of zeros is where it is found. -/
theorem eq_append_of_zeroRuns {groups : List Nat} {start count : Nat}
    (h : (zeroRuns groups)[start]? = some count) :
    groups = groups.take start ++ List.replicate count 0 ++ groups.drop (start + count) := by
  induction groups generalizing start count with
  | nil => simp [zeroRuns] at h
  | cons g rest ih =>
    cases start with
    | zero =>
      have hrest : rest = List.replicate ((zeroRuns rest).headD 0) 0 ++
          rest.drop ((zeroRuns rest).headD 0) := by
        cases hruns : zeroRuns rest with
        | nil => simp
        | cons run runs =>
          have hrun : (zeroRuns rest)[0]? = some run := by rw [hruns, List.getElem?_cons_zero]
          simpa using ih hrun
      rw [zeroRuns] at h
      by_cases hg : g = 0
      · subst hg
        obtain rfl : (zeroRuns rest).headD 0 + 1 = count := by simpa using h
        rw [List.take_zero, List.nil_append, Nat.zero_add, List.replicate_succ, List.drop_succ_cons,
          List.cons_append, ← hrest]
      · obtain rfl : 0 = count := by simpa [hg] using h
        simp
    | succ start =>
      have hget : (zeroRuns rest)[start]? = some count := by simpa [zeroRuns] using h
      have hstart := ih hget
      rw [List.take_succ_cons, Nat.add_right_comm, List.drop_succ_cons, List.cons_append,
        List.cons_append, ← hstart]

theorem foldl_max_mem (l : List Nat) (m : Nat) : l.foldl max m ∈ m :: l := by
  induction l generalizing m with
  | nil => exact List.mem_cons_self
  | cons n rest ih =>
    have h := ih (max m n)
    rw [List.foldl_cons]
    obtain heq | h := List.mem_cons.1 h
    · rw [heq]
      obtain hmax | hmax := Nat.le_total m n
      · rw [Nat.max_eq_right hmax]
        exact List.mem_cons_of_mem _ List.mem_cons_self
      · rw [Nat.max_eq_left hmax]
        exact List.mem_cons_self
    · exact List.mem_cons_of_mem _ (List.mem_cons_of_mem _ h)

theorem toList_hexTexts (groups : List Nat) :
    (":".intercalate (groups.map hexText)).toList = [':'].intercalate (groupTexts groups) := by
  rw [String.toList_intercalate, List.map_map, groupTexts]
  have hhex : String.toList ∘ hexText = Nat.toDigits 16 := funext fun n => String.toList_ofList
  rw [hhex]
  rfl

/-- **An address of version 6 is read from its text.** -/
theorem ipv6?_ipv6Text {groups : List Nat} (hlength : groups.length = 8)
    (hgroups : ∀ g ∈ groups, IsGroup g) : ipv6? (ipv6Text groups).toList = some groups := by
  have hne : groups ≠ [] := List.ne_nil_of_length_eq_add_one hlength
  unfold ipv6Text
  dsimp only
  by_cases hshort : (zeroRuns groups).foldl max 0 < 2
  · have hpair := splitAtPair_groups hne []
    rw [List.append_nil, splitAtPair, Option.map_none] at hpair
    rw [if_pos hshort, toList_hexTexts, ipv6?, hpair]
    dsimp only
    rw [if_neg (by simpa using intercalate_groupTexts_ne_nil hne), groups?_text hgroups]
    simp [hlength]
  · -- The longest run is left out, and what is missing is as long as the run was.
    generalize hlongest : (zeroRuns groups).foldl max 0 = longest at hshort ⊢
    have hmem : longest ∈ zeroRuns groups := by
      obtain h | h := List.mem_cons.1 (hlongest ▸ foldl_max_mem (zeroRuns groups) 0)
      · omega
      · exact h
    generalize hstart : (zeroRuns groups).idxOf longest = start
    have hget : (zeroRuns groups)[start]? = some longest := hstart ▸ List.getElem?_idxOf hmem
    have hsplit := eq_append_of_zeroRuns hget
    have hfront : ∀ g ∈ groups.take start, IsGroup g := fun g hg => hgroups g (List.mem_of_mem_take hg)
    have hback : ∀ g ∈ groups.drop (start + longest), IsGroup g :=
      fun g hg => hgroups g (List.mem_of_mem_drop hg)
    have hcount : 8 - ((groups.take start).length + (groups.drop (start + longest)).length) = longest := by
      have hsum := congrArg List.length hsplit
      rw [List.length_append, List.length_append, List.length_replicate] at hsum
      omega
    have htext : (":".intercalate ((groups.take start).map hexText) ++ "::" ++
        ":".intercalate ((groups.drop (start + longest)).map hexText)).toList =
          [':'].intercalate (groupTexts (groups.take start)) ++
            ':' :: ':' :: [':'].intercalate (groupTexts (groups.drop (start + longest))) := by
      rw [String.toList_append, String.toList_append, toList_hexTexts, toList_hexTexts, List.append_assoc]
      rfl
    rw [if_neg hshort, htext, ipv6?, splitAtPair_pair]
    simp only [groups?_text hfront, groups?_text hback, Option.bind_eq_bind, Option.bind_some, hcount]
    rw [if_neg (by omega), ← hsplit]

/-! ## Hosts -/

/-- A host as it is found in an address of the web. -/
inductive IsFound : Host → Prop
  | domain {name : String} (lower : ∀ c ∈ name.toList, Domain.IsLower c)
    (allowed : ∀ c ∈ name.toList, Domain.isForbidden c = false) (ne_empty : name.toList ≠ [])
    (named : endsInNumber name.toList = false) : IsFound (.domain name)
  | ipv4 {address : Nat} (bits : address < 2 ^ 32) : IsFound (.ipv4 address)
  | ipv6 {groups : List Nat} (eight : groups.length = 8) (small : ∀ g ∈ groups, IsGroup g) :
    IsFound (.ipv6 groups)

variable {host other : Host}

theorem isFound_of_bracketed? (h : bracketed? cs = .ok host) : IsFound host := by
  unfold bracketed? at h
  split at h
  · split at h
    · next groups hgroups =>
      cases h
      exact .ipv6 (isGroup_of_ipv6? hgroups).1 (isGroup_of_ipv6? hgroups).2
    · cases h
  · cases h

theorem isFound_of_parse (h : parse cs = .ok host) : IsFound host := by
  unfold parse at h
  split at h
  · exact isFound_of_bracketed? h
  · split at h
    · cases h
    · next name hname =>
      split at h
      · cases h
      · next hempty =>
        split at h
        · split at h
          · next address haddress =>
            cases h
            obtain ⟨numbers, -, hvalue⟩ := Option.bind_eq_some_iff.1 haddress
            exact .ipv4 (lt_of_ipv4Value? hvalue)
          · cases h
        · next hnumber =>
          cases h
          refine .domain ?_ ?_ ?_ ?_ <;> rw [String.toList_ofList]
          · exact fun c hc => (Domain.isLower_of_ascii? hname hc).1
          · exact fun c hc => (Domain.isLower_of_ascii? hname hc).2
          · simpa using hempty
          · simpa using hnumber

/-- What stands in the text of a host: nothing at which an address is divided. -/
def IsPlainChar (c : Char) : Prop :=
  0x20 < c.toNat ∧ c.toNat < 0x80 ∧ c ∉ ['/', '\\', '?', '#', '@', '%']

instance : DecidablePred IsPlainChar := fun _ => inferInstanceAs (Decidable (_ ∧ _))

theorem isPlainChar_of_allowed (hascii : c.toNat < 0x80) (hallowed : Domain.isForbidden c = false) :
    IsPlainChar c ∧ c ≠ ':' ∧ c ≠ '[' := by
  revert hallowed
  exact Text.forall_ascii (p := fun c => Domain.isForbidden c = false → IsPlainChar c ∧ c ≠ ':' ∧ c ≠ '[')
    (by decide) hascii

theorem mem_ipv4Text {address : Nat} (h : c ∈ (ipv4Text address).toList) :
    c = '.' ∨ ∃ d < 10, c = d.digitChar := by
  rw [toList_ipv4Text] at h
  refine (Domain.mem_intercalate h).imp id fun ⟨cs, hcs, hc⟩ => ?_
  obtain ⟨byte, -, rfl⟩ := List.mem_map.1 hcs
  exact digit_of_mem_toDigits (by omega) hc

theorem isLower_of_mem_ipv4Text {address : Nat} (h : c ∈ (ipv4Text address).toList) :
    Domain.IsLower c := by
  have hall : ∀ d < 10, Domain.IsLower d.digitChar := by decide
  obtain rfl | ⟨d, hd, rfl⟩ := mem_ipv4Text h
  · decide
  · exact hall d hd

theorem isPlainChar_of_mem_ipv4Text {address : Nat} (h : c ∈ (ipv4Text address).toList) :
    IsPlainChar c ∧ c ≠ ':' ∧ c ≠ '[' := by
  have hall : ∀ d < 10, IsPlainChar d.digitChar ∧ d.digitChar ≠ ':' ∧ d.digitChar ≠ '[' := by decide
  obtain rfl | ⟨d, hd, rfl⟩ := mem_ipv4Text h
  · decide
  · exact hall d hd

theorem mem_hexTexts {groups : List Nat} (h : c ∈ (":".intercalate (groups.map hexText)).toList) :
    c = ':' ∨ ∃ d < 16, c = d.digitChar := by
  rw [toList_hexTexts] at h
  refine (Domain.mem_intercalate h).imp id fun ⟨cs, hcs, hc⟩ => ?_
  obtain ⟨g, -, rfl⟩ := List.mem_map.1 hcs
  exact digit_of_mem_toDigits (by omega) hc

theorem mem_ipv6Text {groups : List Nat} (h : c ∈ (ipv6Text groups).toList) :
    c = ':' ∨ ∃ d < 16, c = d.digitChar := by
  unfold ipv6Text at h
  dsimp only at h
  split at h
  · exact mem_hexTexts h
  · simp only [String.toList_append, List.mem_append] at h
    obtain (h | h) | h := h
    · exact mem_hexTexts h
    · exact .inl (by simpa using h)
    · exact mem_hexTexts h

theorem isPlainChar_of_mem_ipv6Text {groups : List Nat} (h : c ∈ (ipv6Text groups).toList) :
    IsPlainChar c ∧ c ≠ ']' := by
  have hall : ∀ d < 16, IsPlainChar d.digitChar ∧ d.digitChar ≠ ']' := by decide
  obtain rfl | ⟨d, hd, rfl⟩ := mem_ipv6Text h
  · decide
  · exact hall d hd

theorem text_ipv4 (address : Nat) : (ipv4 address).text = ipv4Text address := rfl

theorem toList_text_ipv6 (groups : List Nat) :
    (ipv6 groups).text.toList = '[' :: ((ipv6Text groups).toList ++ [']']) := by
  rw [text, String.toList_append, String.toList_append]
  rfl

theorem isPlainChar_of_mem_text (hfound : IsFound host) (h : c ∈ host.text.toList) : IsPlainChar c := by
  cases hfound with
  | domain lower allowed => exact (isPlainChar_of_allowed (lower c h).1 (allowed c h)).1
  | ipv4 => exact (isPlainChar_of_mem_ipv4Text h).1
  | ipv6 =>
    rw [toList_text_ipv6] at h
    obtain rfl | h := List.mem_cons.1 h
    · decide
    · obtain h | h := List.mem_append.1 h
      · exact (isPlainChar_of_mem_ipv6Text h).1
      · obtain rfl := List.mem_singleton.1 h
        decide

theorem ipv4Text_ne_nil (address : Nat) : (ipv4Text address).toList ≠ [] := by
  intro h
  have hends := endsInNumber_ipv4Text address
  rw [h] at hends
  exact absurd hends (by decide)

theorem text_ne_nil (hfound : IsFound host) : host.text.toList ≠ [] := by
  cases hfound with
  | domain _ _ ne_empty => exact ne_empty
  | ipv4 => exact ipv4Text_ne_nil _
  | ipv6 =>
    rw [toList_text_ipv6]
    exact List.cons_ne_nil _ _

/-- What is read of a text that holds nothing but characters that stand for themselves. -/
theorem parse_eq_of_lower (hplain : ∀ c ∈ cs, Domain.IsLower c ∧ IsPlainChar c ∧ c ≠ '[') (hne : cs ≠ [])
    (h : parse cs = .ok other) :
    (endsInNumber cs = true → ∃ address, ipv4? cs = some address ∧ other = .ipv4 address) ∧
      (endsInNumber cs = false → other = .domain (String.ofList cs)) := by
  have hhead : cs.head? ≠ some '[' := fun hhead => (hplain '[' (List.mem_of_head? hhead)).2.2 rfl
  rw [parse, if_neg hhead] at h
  split at h
  · cases h
  · next spelled hspelled =>
    obtain rfl : spelled = cs := Domain.ascii?_eq_self
      (fun c hc => ⟨(hplain c hc).1, fun hpercent => (hplain c hc).2.1.2.2 (by simp [hpercent])⟩) hspelled
    rw [if_neg (by simpa using hne)] at h
    refine ⟨fun hends => ?_, fun hends => ?_⟩
    · rw [if_pos hends] at h
      split at h
      · next address haddress =>
        cases h
        exact ⟨address, haddress, rfl⟩
      · cases h
    · rw [if_neg (by simp [hends])] at h
      exact (Except.ok.inj h).symm

/-- **A host that is found in the text of another one is that one.** -/
theorem parse_text (hfound : IsFound host) (h : parse host.text.toList = .ok other) : other = host := by
  cases hfound with
  | @domain name lower allowed ne_empty named =>
    have hother := (parse_eq_of_lower (fun c hc =>
      ⟨lower c hc, (isPlainChar_of_allowed (lower c hc).1 (allowed c hc)).imp id And.right⟩) ne_empty h).2 named
    rwa [String.ofList_toList] at hother
  | @ipv4 address bits =>
    rw [text_ipv4] at h
    have hplain : ∀ c ∈ (ipv4Text address).toList, Domain.IsLower c ∧ IsPlainChar c ∧ c ≠ '[' := fun c hc =>
      ⟨isLower_of_mem_ipv4Text hc, (isPlainChar_of_mem_ipv4Text hc).imp id And.right⟩
    obtain ⟨found, hfound, rfl⟩ :=
      (parse_eq_of_lower hplain (ipv4Text_ne_nil address) h).1 (endsInNumber_ipv4Text address)
    rw [ipv4?_ipv4Text bits] at hfound
    rw [Option.some.inj hfound]
  | @ipv6 groups eight small =>
    have hlast : (ipv6 groups).text.toList.getLast? = some ']' := by
      rw [toList_text_ipv6, ← List.cons_append, List.getLast?_concat]
    have hinner : ((ipv6 groups).text.toList.drop 1).dropLast = (ipv6Text groups).toList := by
      rw [toList_text_ipv6, List.drop_succ_cons, List.drop_zero, List.dropLast_concat]
    have hhead : (ipv6 groups).text.toList.head? = some '[' := by
      rw [toList_text_ipv6, List.head?_cons]
    rw [parse, if_pos hhead, bracketed?, if_pos hlast, hinner, ipv6?_ipv6Text eight small] at h
    exact (Except.ok.inj h).symm

end ContentSync.Host
