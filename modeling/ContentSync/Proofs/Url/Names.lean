import ContentSync.Proofs.Text.Bytes
import ContentSync.Url.Parse
import Mathlib.Algebra.Order.Ring.Nat
import Mathlib.Data.List.Infix

/-!
# The names of a path

The path of an address of the web is a list of names. What the reader puts there is written in such a
way that reading it again changes nothing: nothing in a name would have to be escaped or would separate
names, and no name is a dot or two.

* `not_escapes_of_mem_escape` — what has been escaped needs no more escaping;
* `Url.IsName` — a name as it stands in a path;
* `Url.isName_of_mem_addNames`, `Url.addNames_of_isName` — what is added is a name, and a name is added as
  it is;
* `Url.parts_cons_names` — names with slashes between them fall apart into the names;
* `Url.pathLength_addNames_le` — a path grows by no more than the text that is added.
-/

set_option autoImplicit false

namespace ContentSync

/-! ## Parts of a text -/

namespace Text

variable {separates : Char → Bool} {cs part : List Char} {c s : Char}

theorem addToFirst_eq (c : Char) {ps : List (List Char)} (h : ps ≠ []) :
    addToFirst c ps = ps.modifyHead (c :: ·) := by
  cases ps with
  | nil => exact absurd rfl h
  | cons => rfl

/-- The parts are those that the library makes. -/
theorem parts_eq_splitOnP (separates : Char → Bool) (cs : List Char) :
    parts separates cs = cs.splitOnP separates := by
  induction cs with
  | nil => rfl
  | cons c rest ih =>
    rw [parts, List.splitOnP_cons_eq_if_modifyHead, addToFirst_eq _ (parts_ne_nil _ _), ih]

theorem mem_of_mem_addToFirst {ps : List (List Char)} (h : part ∈ addToFirst c ps) :
    part ∈ ps ∨ part = [c] ∨ ∃ p ∈ ps, part = c :: p := by
  cases ps with
  | nil => exact .inr (.inl (List.mem_singleton.1 h))
  | cons p rest =>
    obtain rfl | h := List.mem_cons.1 h
    · exact .inr (.inr ⟨p, List.mem_cons_self, rfl⟩)
    · exact .inl (List.mem_cons_of_mem _ h)

/-- No part holds a separator. -/
theorem mem_parts (h : part ∈ parts separates cs) (hc : c ∈ part) : c ∈ cs ∧ separates c = false := by
  induction cs generalizing part with
  | nil =>
    obtain rfl := List.mem_singleton.1 h
    cases hc
  | cons d rest ih =>
    rw [parts] at h
    by_cases hd : separates d = true
    · rw [if_pos hd] at h
      obtain rfl | h := List.mem_cons.1 h
      · cases hc
      · exact (ih h hc).imp (List.mem_cons_of_mem _) id
    · rw [if_neg hd] at h
      obtain h | rfl | ⟨p, hp, rfl⟩ := mem_of_mem_addToFirst h
      · exact (ih h hc).imp (List.mem_cons_of_mem _) id
      · obtain rfl := List.mem_singleton.1 hc
        exact ⟨List.mem_cons_self, Bool.eq_false_iff.2 hd⟩
      · obtain rfl | hc := List.mem_cons.1 hc
        · exact ⟨List.mem_cons_self, Bool.eq_false_iff.2 hd⟩
        · exact (ih hp hc).imp (List.mem_cons_of_mem _) id

/-- A part ends at the next separator. -/
theorem parts_part_separator (hpart : ∀ c ∈ part, separates c = false) (hs : separates s = true) :
    parts separates (part ++ s :: cs) = part :: parts separates cs := by
  rw [parts_append_separator hs, parts_eq_singleton hpart]
  rfl

/-- With a separator each, the parts are as long as the text and one more separator. -/
theorem sum_length_parts :
    ((parts separates cs).map fun part => part.length + 1).sum = cs.length + 1 := by
  induction cs with
  | nil => rfl
  | cons c rest ih =>
    rw [parts]
    split
    · simp [ih, Nat.add_comm]
    · cases hparts : parts separates rest with
      | nil => exact absurd hparts (parts_ne_nil _ _)
      | cons part ps =>
        rw [hparts] at ih
        simp only [addToFirst, List.map_cons, List.sum_cons, List.length_cons] at ih ⊢
        omega

end Text

/-! ## Escapes -/

theorem upperHexDigit_not_escapes (set : EscapeSet) {n : Nat} (h : n < 16) :
    set.escapes (Text.upperHexDigit n) = false := by
  have hall : ∀ n < 16, set.escapes (Text.upperHexDigit n) = false := by cases set <;> decide
  exact hall n h

theorem not_escapes_of_mem_percentEncode {set : EscapeSet} {b : UInt8} {c : Char}
    (h : c ∈ Text.percentEncode b) : set.escapes c = false := by
  have hb : b.toNat < 256 := b.toNat_lt
  simp only [Text.percentEncode, List.mem_cons, List.not_mem_nil, or_false] at h
  obtain rfl | rfl | rfl := h
  · cases set <;> decide
  · exact upperHexDigit_not_escapes set (by omega)
  · exact upperHexDigit_not_escapes set (by omega)

/-- What has been escaped needs no more escaping. -/
theorem not_escapes_of_mem_escape {set : EscapeSet} {cs : List Char} {c : Char} (h : c ∈ escape set cs) :
    set.escapes c = false := by
  obtain ⟨d, -, hc⟩ := List.mem_flatMap.1 h
  unfold escapeChar at hc
  by_cases hd : set.escapes d = true
  · rw [if_pos hd] at hc
    obtain ⟨b, -, hc⟩ := List.mem_flatMap.1 hc
    exact not_escapes_of_mem_percentEncode hc
  · rw [if_neg hd] at hc
    obtain rfl := List.mem_singleton.1 hc
    exact Bool.eq_false_iff.2 hd

/-- A list in which every `%` comes with the two digits of a dot. -/
def OnlyDots (cs : List Char) : Prop := ∀ x y rest, '%' :: x :: y :: rest <:+ cs → x = '2' ∧ y = 'e'

theorem OnlyDots.nil : OnlyDots [] := fun x y rest h => absurd (List.suffix_nil.1 h) (by simp)

theorem OnlyDots.dot {cs : List Char} (h : OnlyDots cs) : OnlyDots ('.' :: cs) := by
  intro x y rest hsuffix
  obtain heq | hsuffix := List.suffix_cons_iff.1 hsuffix
  · exact absurd (List.cons.inj heq).1 (by decide)
  · exact h x y rest hsuffix

theorem OnlyDots.percent {cs : List Char} (h : OnlyDots cs) : OnlyDots ('%' :: '2' :: 'e' :: cs) := by
  intro x y rest hsuffix
  simp only [List.suffix_cons_iff, List.cons.injEq] at hsuffix
  obtain ⟨-, rfl, rfl, -⟩ | ⟨heq, -⟩ | ⟨heq, -⟩ | hsuffix := hsuffix
  · exact ⟨rfl, rfl⟩
  · exact absurd heq (by decide)
  · exact absurd heq (by decide)
  · exact h x y rest hsuffix

theorem OnlyDots.tail {c : Char} {cs : List Char} (h : OnlyDots (c :: cs)) : OnlyDots cs :=
  fun x y rest hsuffix => h x y rest (hsuffix.trans (List.suffix_cons c cs))

/-- The digits of an escaped character are not those of a dot. -/
theorem escapeChar_not_dot {c : Char} (hc : EscapeSet.path.escapes c = true) :
    ∃ x y rest, escapeChar .path c = '%' :: x :: y :: rest ∧ ¬ (x.toLower = '2' ∧ y.toLower = 'e') := by
  have hdigits : ∀ n < 256, (Text.upperHexDigit (n / 16)).toLower = '2' ∧
      (Text.upperHexDigit (n % 16)).toLower = 'e' → n = '.'.toNat := by decide +kernel
  obtain ⟨b, rest, hbytes⟩ := List.exists_cons_of_ne_nil (String.utf8EncodeChar_ne_nil (c := c))
  refine ⟨_, _, _, by rw [escapeChar, if_pos hc, hbytes]; rfl, fun hdot => ?_⟩
  have hb : b.toNat = '.'.toNat := hdigits _ b.toNat_lt hdot
  obtain ⟨-, hnat⟩ := Text.eq_singleton_of_mem_utf8EncodeChar
    (hbytes ▸ List.mem_cons_self : b ∈ String.utf8EncodeChar c) (hb ▸ by decide)
  have hcdot : c = '.' := Char.ext (UInt32.toNat_inj.1 (hnat.symm.trans hb))
  subst hcdot
  exact absurd hc (by decide)

/-- What is escaped does not spell a dot that was not there before. -/
theorem map_toLower_of_escape {name dots : List Char} (hdots : OnlyDots dots)
    (h : (escape .path name).map Char.toLower = dots) : name.map Char.toLower = dots := by
  induction name generalizing dots with
  | nil => exact h
  | cons c rest ih =>
    rw [escape, List.flatMap_cons] at h
    by_cases hc : EscapeSet.path.escapes c = true
    · obtain ⟨x, y, more, hchar, hnot⟩ := escapeChar_not_dot hc
      rw [hchar] at h
      subst h
      exact absurd (hdots _ _ _ (List.suffix_refl _)) hnot
    · rw [escapeChar, if_neg hc] at h
      subst h
      rw [List.map_cons, ih hdots.tail rfl]
      rfl

namespace Url

theorem isDot_of_escape {name : List Char} (h : isDot (escape .path name) = true) : isDot name = true := by
  have hdots : ∀ dots ∈ [['.'], ['%', '2', 'e']], OnlyDots dots :=
    List.forall_mem_cons.2 ⟨.dot .nil, List.forall_mem_cons.2 ⟨.percent .nil, List.forall_mem_nil _⟩⟩
  simp only [isDot, List.contains_iff_mem] at h ⊢
  rwa [map_toLower_of_escape (hdots _ h) rfl]

theorem isDoubleDot_of_escape {name : List Char} (h : isDoubleDot (escape .path name) = true) :
    isDoubleDot name = true := by
  have hdots : ∀ dots ∈ [['.', '.'], ['.', '%', '2', 'e'], ['%', '2', 'e', '.'],
      ['%', '2', 'e', '%', '2', 'e']], OnlyDots dots := by
    simp only [List.forall_mem_cons]
    exact ⟨.dot (.dot .nil), .dot (.percent .nil), .percent (.dot .nil), .percent (.percent .nil),
      List.forall_mem_nil _⟩
  simp only [isDoubleDot, List.contains_iff_mem] at h ⊢
  rwa [map_toLower_of_escape (hdots _ h) rfl]

/-! ## Names -/

/-- A name as it stands in a path. -/
structure IsName (name : String) : Prop where
  plain : ∀ c ∈ name.toList, EscapeSet.path.escapes c = false
  unslashed : ∀ c ∈ name.toList, isAnySlash c = false
  not_dot : isDot name.toList = false
  not_doubleDot : isDoubleDot name.toList = false

theorem isName_empty : IsName "" := ⟨by simp, by simp, by decide, by decide⟩

/-- The schemes of the web. -/
def IsWebScheme (scheme : String) : Prop := scheme = "http" ∨ scheme = "https"

variable {scheme : String} {names : List String} {name : List Char} {part : List Char} {last : Bool}

theorem IsWebScheme.hasDomains (h : IsWebScheme scheme) : hasDomains scheme = true := by
  obtain rfl | rfl := h <;> rfl

theorem IsWebScheme.ne_file (h : IsWebScheme scheme) : scheme ≠ "file" := by
  obtain rfl | rfl := h <;> decide

theorem IsWebScheme.isSlash (h : IsWebScheme scheme) : Url.isSlash scheme = isAnySlash := by
  funext c
  rw [Url.isSlash, h.hasDomains, Bool.and_true]
  rfl

theorem upperHexDigit_not_slash {n : Nat} (h : n < 16) : isAnySlash (Text.upperHexDigit n) = false := by
  have hall : ∀ n < 16, isAnySlash (Text.upperHexDigit n) = false := by decide
  exact hall n h

/-- Escaping adds no slashes. -/
theorem not_slash_of_mem_escape {set : EscapeSet} {cs : List Char} {c : Char}
    (h : ∀ c ∈ cs, isAnySlash c = false) (hc : c ∈ escape set cs) : isAnySlash c = false := by
  obtain ⟨d, hd, hc⟩ := List.mem_flatMap.1 hc
  unfold escapeChar at hc
  split at hc
  · obtain ⟨b, -, hc⟩ := List.mem_flatMap.1 hc
    have hb : b.toNat < 256 := b.toNat_lt
    simp only [Text.percentEncode, List.mem_cons, List.not_mem_nil, or_false] at hc
    obtain rfl | rfl | rfl := hc
    · decide
    · exact upperHexDigit_not_slash (by omega)
    · exact upperHexDigit_not_slash (by omega)
  · obtain rfl := List.mem_singleton.1 hc
    exact h c hd

theorem mem_leave {n : String} (h : n ∈ leave names) : n ∈ names := by
  unfold leave at h
  split at h
  · exact h
  · exact List.mem_of_mem_dropLast h

/-- What is added to a path is a name. -/
theorem isName_of_mem_addName (hscheme : IsWebScheme scheme) (hnames : ∀ n ∈ names, IsName n)
    (hpart : ∀ c ∈ part, isAnySlash c = false) :
    ∀ n ∈ addName scheme names part last, IsName n := by
  intro n hn
  have hend : n ∈ (if last then [""] else []) → IsName n := by
    cases last with
    | false => exact fun h => absurd h (by simp)
    | true => exact fun h => List.mem_singleton.1 h ▸ isName_empty
  unfold addName at hn
  split at hn
  · exact (List.mem_append.1 hn).elim (fun h => hnames n (mem_leave h)) hend
  · next hdouble =>
    split at hn
    · exact (List.mem_append.1 hn).elim (hnames n) hend
    · next hdot =>
      rw [if_neg fun h => hscheme.ne_file h.1] at hn
      obtain hn | hn := List.mem_append.1 hn
      · exact hnames n hn
      · obtain rfl := List.mem_singleton.1 hn
        rw [Bool.not_eq_true] at hdouble hdot
        refine ⟨?_, ?_, ?_, ?_⟩ <;> rw [String.toList_ofList]
        · exact fun _ => not_escapes_of_mem_escape
        · exact fun _ => not_slash_of_mem_escape hpart
        · exact Bool.eq_false_iff.2 fun h => absurd (isDot_of_escape h) (by simp [hdot])
        · exact Bool.eq_false_iff.2 fun h => absurd (isDoubleDot_of_escape h) (by simp [hdouble])

theorem isName_of_mem_addNames (hscheme : IsWebScheme scheme) {parts : List (List Char)}
    (hnames : ∀ n ∈ names, IsName n) (hparts : ∀ part ∈ parts, ∀ c ∈ part, isAnySlash c = false) :
    ∀ n ∈ addNames scheme names parts, IsName n := by
  induction parts generalizing names with
  | nil => exact hnames
  | cons part rest ih =>
    refine ih ?_ fun p hp => hparts p (List.mem_cons_of_mem _ hp)
    exact isName_of_mem_addName hscheme hnames (hparts part List.mem_cons_self)

/-- A name is added as it is. -/
theorem addName_of_isName (hscheme : IsWebScheme scheme) {n : String} (hn : IsName n) :
    addName scheme names n.toList last = names ++ [n] := by
  rw [addName, hn.not_doubleDot, hn.not_dot, if_neg (by simp), if_neg (by simp),
    if_neg fun h => hscheme.ne_file h.1, escape_eq_self hn.plain, String.ofList_toList]

theorem addNames_of_isName (hscheme : IsWebScheme scheme) {added : List String}
    (hadded : ∀ n ∈ added, IsName n) :
    addNames scheme names (added.map String.toList) = names ++ added := by
  induction added generalizing names with
  | nil => simp [addNames]
  | cons n rest ih =>
    rw [List.map_cons, addNames, addName_of_isName hscheme (hadded n List.mem_cons_self),
      ih fun m hm => hadded m (List.mem_cons_of_mem _ hm), List.append_assoc]
    rfl

/-! ## The text of a path -/

theorem toList_text_names (names : List String) :
    (UrlPath.names names).text.toList = names.flatMap fun n => '/' :: n.toList := by
  induction names with
  | nil => rfl
  | cons n rest ih =>
    have hcons : (UrlPath.names (n :: rest)).text = "/" ++ n ++ (UrlPath.names rest).text := by
      simp only [UrlPath.text, List.map_cons, String.join_cons]
    rw [hcons, String.toList_append, String.toList_append, ih]
    rfl

/-- Names with slashes between them fall apart into the names. -/
theorem parts_cons_names {separates : Char → Bool} (hslash : separates '/' = true) {n : String}
    (h : ∀ m ∈ n :: names, ∀ c ∈ m.toList, separates c = false) :
    Text.parts separates (n.toList ++ (UrlPath.names names).text.toList) =
      (n :: names).map String.toList := by
  rw [toList_text_names]
  induction names generalizing n with
  | nil =>
    rw [List.flatMap_nil, List.append_nil, Text.parts_eq_singleton (h n List.mem_cons_self)]
    rfl
  | cons m rest ih =>
    rw [List.flatMap_cons, List.cons_append, Text.parts_part_separator (h n List.mem_cons_self) hslash,
      ih fun k hk => h k (List.mem_cons_of_mem _ hk)]
    rfl

/-- How long the text of a path is. -/
def pathLength (names : List String) : Nat := (names.map fun n => n.toList.length + 1).sum

theorem length_text_names (names : List String) :
    (UrlPath.names names).text.toList.length = pathLength names := by
  rw [toList_text_names, List.length_flatMap, pathLength]
  rfl

theorem pathLength_append (a b : List String) : pathLength (a ++ b) = pathLength a + pathLength b := by
  simp [pathLength]

theorem pathLength_leave_le : pathLength (leave names) ≤ pathLength names := by
  unfold leave
  split
  · exact Nat.le_refl _
  · obtain rfl | ⟨front, n, rfl⟩ := names.eq_nil_or_concat
    · exact Nat.le_refl _
    · rw [List.concat_eq_append, List.dropLast_concat, pathLength_append]
      exact Nat.le_add_right _ _

theorem pathLength_addName_le (hscheme : IsWebScheme scheme)
    (hpart : ∀ c ∈ part, EscapeSet.path.escapes c = false) :
    pathLength (addName scheme names part last) ≤ pathLength names + (part.length + 1) := by
  have hend : pathLength (if last then [""] else []) ≤ 1 := by cases last <;> decide
  unfold addName
  split
  · rw [pathLength_append]
    have hleave : pathLength (leave names) ≤ pathLength names := pathLength_leave_le
    omega
  · split
    · rw [pathLength_append]
      omega
    · rw [if_neg fun h => hscheme.ne_file h.1, pathLength_append, escape_eq_self hpart]
      simp [pathLength]

/-- A path grows by no more than the text that is added. -/
theorem pathLength_addNames_le (hscheme : IsWebScheme scheme) {parts : List (List Char)}
    (hparts : ∀ part ∈ parts, ∀ c ∈ part, EscapeSet.path.escapes c = false) :
    pathLength (addNames scheme names parts) ≤
      pathLength names + (parts.map fun part => part.length + 1).sum := by
  induction parts generalizing names with
  | nil => exact Nat.le_refl _
  | cons part rest ih =>
    have hrest : pathLength (addNames scheme (addName scheme names part rest.isEmpty) rest) ≤ _ :=
      ih fun p hp => hparts p (List.mem_cons_of_mem _ hp)
    have hpart : pathLength (addName scheme names part rest.isEmpty) ≤ _ :=
      pathLength_addName_le hscheme (hparts part List.mem_cons_self)
    rw [addNames, List.map_cons, List.sum_cons]
    omega

end Url

end ContentSync
