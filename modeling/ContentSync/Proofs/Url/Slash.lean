import ContentSync.Proofs.Url.Web

/-!
# A slash at the end of an address

To the text of an address a slash is added if there is none at its end. The slash ends the path only if the
text ends with the path: after a mark it becomes a part of the query or the fragment. Where the text ends
with a backslash, the path had ended already; where it ends with a control, which does not count at the end
of a text, this control now counts.

* `Url.closed` — the names of a path with a slash at its end;
* `Url.closed_addNames_iff` — when a slash at the end of a text ends the path, and does nothing else;
* `Url.parseAuthority_control` — there is no authority with a control at its end;
* `Url.KeepsPath`, `Url.exists_compared` — the same for the text of an address.
-/

set_option autoImplicit false

namespace ContentSync

/-! ## The end of a text -/

namespace Text

variable {separates : Char → Bool}

/-- The last part of a text, and what becomes of it when more is added. -/
theorem exists_last_part (separates : Char → Bool) (cs : List Char) :
    ∃ front last, (∀ back, (∀ c ∈ back, separates c = false) →
      parts separates (cs ++ back) = front ++ [last ++ back]) ∧
      ∀ s, separates s = true → (last = [] ↔ ∀ c ∈ (s :: cs).getLast?, separates c = true) := by
  induction cs using List.reverseRecOn with
  | nil =>
    refine ⟨[], [], fun back hback => parts_eq_singleton hback, fun s hs => ?_⟩
    simp [hs]
  | append_singleton cs d ih =>
    obtain ⟨front, last, hparts, -⟩ := ih
    by_cases hd : separates d = true
    · refine ⟨front ++ [last], [], fun back hback => ?_, fun s _ => ?_⟩
      · have hcs := hparts [] (List.forall_mem_nil _)
        rw [List.append_nil, List.append_nil] at hcs
        rw [List.append_assoc, List.singleton_append, parts_append_separator hd, hcs,
          parts_eq_singleton hback, List.nil_append]
      · rw [← List.cons_append, List.getLast?_concat]
        simp [hd]
    · refine ⟨front, last ++ [d], fun back hback => ?_, fun s _ => ?_⟩
      · rw [List.append_assoc, List.append_assoc, List.singleton_append]
        exact hparts _ (List.forall_mem_cons.2 ⟨Bool.eq_false_iff.2 hd, hback⟩)
      · rw [← List.cons_append, List.getLast?_concat]
        simp [hd]

end Text

namespace Reference

variable {cs a b : List Char} {mark : Char}

theorem cleanEnd_append_slash (cs : List Char) : cleanEnd (cs ++ ['/']) = cs.filter counts ++ ['/'] := by
  rw [cleanEnd, Text.dropEndWhile_eq, List.rdropWhile_concat_neg _ _ _ (by decide), List.filter_append]
  rfl

/-- What does not count at the end of a text counts before other characters. -/
theorem exists_controls (hlast : ∀ c ∈ cs.getLast?, counts c = true) :
    ∃ controls, cs.filter counts = cleanEnd cs ++ controls ∧ (∀ c ∈ controls, c.toNat ≤ 0x20) ∧
      (controls = [] ↔ ∀ c ∈ cs.getLast?, 0x20 < c.toNat) := by
  refine ⟨(cs.rtakeWhile (· ≤ ' ')).filter counts, ?_, fun c hc => ?_, ?_⟩
  · rw [cleanEnd, Text.dropEndWhile_eq, ← List.filter_append, List.rdropWhile_append_rtakeWhile]
  · have hle := List.mem_rtakeWhile_imp (List.mem_of_mem_filter hc)
    rwa [decide_eq_true_eq, le_space_iff] at hle
  · induction cs using List.reverseRecOn with
    | nil => simp
    | append_singleton cs c _ =>
      rw [List.getLast?_concat] at hlast ⊢
      have hcounts : counts c = true := hlast c rfl
      by_cases hc : c ≤ ' '
      · rw [List.rtakeWhile_concat_pos _ _ _ (by simpa using hc), List.filter_append]
        have := le_space_iff.1 hc
        simp [hcounts]
        omega
      · rw [List.rtakeWhile_concat_neg _ _ _ (by simpa using hc)]
        have := mt le_space_iff.2 hc
        simp
        omega

/-- What comes after a mark does not change what comes before it. -/
theorem divide_append_of_mem (h : mark ∈ a) (b : List Char) :
    (divide mark (a ++ b)).1 = (divide mark a).1 := by
  obtain ⟨front, back, rfl, hfront⟩ := List.eq_append_cons_of_mem h
  rw [List.append_assoc, List.cons_append, divide_append hfront, divide_append hfront]

theorem divide_eq_none_iff : (divide mark a).2 = none ↔ mark ∉ a := by
  refine ⟨fun h hmem => ?_, fun h => by rw [divide_of_not_mem h]⟩
  obtain ⟨front, back, rfl, hfront⟩ := List.eq_append_cons_of_mem hmem
  rw [divide_append hfront] at h
  cases h

theorem ofChars_eq (cs : List Char) :
    ofChars cs =
      ⟨(divide '?' (divide '#' cs).1).1, (divide '?' (divide '#' cs).1).2, (divide '#' cs).2⟩ := rfl

/-- There is neither a query nor a fragment. -/
def Unmarked (r : Reference) : Prop := r.query = none ∧ r.fragment = none

/-- A text without a query and without a fragment holds no marks. -/
theorem not_mem_of_unmarked (h : Unmarked (ofChars cs)) : '#' ∉ cs ∧ '?' ∉ cs := by
  obtain ⟨hquery, hfragment⟩ := h
  rw [ofChars_eq] at hquery hfragment
  have hsharp := divide_eq_none_iff.1 hfragment
  refine ⟨hsharp, ?_⟩
  rw [divide_of_not_mem hsharp] at hquery
  exact divide_eq_none_iff.1 hquery

theorem body_of_unmarked (h : Unmarked (ofChars cs)) : (ofChars cs).body = cs := by
  obtain ⟨hfragment, hquery⟩ := not_mem_of_unmarked h
  rw [ofChars_unmarked hfragment hquery]

/-- What is added after a mark does not change the path. -/
theorem body_append_of_marked (h : ¬ Unmarked (ofChars a)) (b : List Char) :
    (ofChars (a ++ b)).body = (ofChars a).body := by
  simp only [Unmarked, ofChars_eq] at h ⊢
  by_cases hsharp : '#' ∈ a
  · rw [divide_append_of_mem hsharp]
  · rw [divide_of_not_mem hsharp] at h ⊢
    have hquery : '?' ∈ a := by
      by_contra hnot
      exact h ⟨divide_eq_none_iff.2 hnot, rfl⟩
    rw [divide_front_append hsharp, divide_append_of_mem hquery]

end Reference

namespace Url

variable {scheme : String} {names : List String} {part controls back : List Char} {last : Bool}

/-! ## Names and a slash at the end -/

/-- The names of a path with a slash at its end. -/
def closed (names : List String) : List String := if names.getLast? = some "" then names else names ++ [""]

theorem closed_empty (names : List String) : closed (names ++ [""]) = names ++ [""] := by simp [closed]

theorem closed_name {n : String} (hn : n ≠ "") (names : List String) :
    closed (names ++ [n]) = names ++ [n, ""] := by simp [closed, hn]

/-- The last name of a path gives way to nothing exactly if it is nothing itself. -/
theorem dropLast_eq_closed_iff (hne : names ≠ []) :
    names.dropLast ++ [""] = closed names ↔ names.getLast? = some "" := by
  obtain ⟨front, n, rfl⟩ := names.eq_nil_or_concat'.resolve_left hne
  by_cases hn : n = ""
  · simp [hn, closed_empty]
  · rw [closed_name hn]
    simp [hn]

theorem addName_web (hscheme : IsWebScheme scheme) (names : List String) (name : List Char) (last : Bool) :
    addName scheme names name last =
      if isDoubleDot name then leave names ++ (if last then [""] else [])
      else if isDot name then names ++ (if last then [""] else [])
      else names ++ [String.ofList (escape .path name)] := by
  rw [addName]
  split
  · rfl
  · split
    · rfl
    · rw [if_neg fun h => hscheme.ne_file h.1]

theorem escape_ne_nil {set : EscapeSet} {cs : List Char} (h : cs ≠ []) : escape set cs ≠ [] := by
  obtain ⟨c, rest, rfl⟩ := List.exists_cons_of_ne_nil h
  have hchar : escapeChar set c ≠ [] := by
    unfold escapeChar
    split
    · obtain ⟨b, bytes, hbytes⟩ := List.exists_cons_of_ne_nil (String.utf8EncodeChar_ne_nil (c := c))
      rw [hbytes]
      exact List.cons_ne_nil _ _
    · exact List.cons_ne_nil _ _
  rw [escape, List.flatMap_cons]
  exact fun h => hchar (List.append_eq_nil_iff.1 h).1

/-- A slash after a name ends the path, unless the name is empty. -/
theorem addName_slash_iff (hscheme : IsWebScheme scheme) (names : List String) (part : List Char) :
    addName scheme names part false ++ [""] = closed (addName scheme names part true) ↔ part ≠ [] := by
  rw [addName_web hscheme, addName_web hscheme]
  by_cases hdouble : isDoubleDot part = true
  · have hpart : part ≠ [] := by
      rintro rfl
      exact absurd hdouble (by decide)
    simp [hdouble, closed_empty, hpart]
  · by_cases hdot : isDot part = true
    · have hpart : part ≠ [] := by
        rintro rfl
        exact absurd hdot (by decide)
      simp [hdouble, hdot, closed_empty, hpart]
    · rw [if_neg hdouble, if_neg hdot, if_neg hdouble, if_neg hdot]
      by_cases hpart : part = []
      · subst hpart
        simp [closed]
      · rw [closed_name fun h => escape_ne_nil hpart (String.ofList_eq_empty_iff.1 h)]
        simp [hpart]

/-- Dots are written without controls. -/
theorem lt_of_isDot {cs : List Char} (h : isDot cs = true ∨ isDoubleDot cs = true) :
    ∀ c ∈ cs, 0x20 < c.toNat := by
  have hdots : cs.map Char.toLower ∈ [['.'], ['%', '2', 'e'], ['.', '.'], ['.', '%', '2', 'e'],
      ['%', '2', 'e', '.'], ['%', '2', 'e', '%', '2', 'e']] := by
    rw [isDot, isDoubleDot, List.contains_iff_mem, List.contains_iff_mem] at h
    exact h.elim (fun h => List.mem_append_left _ h) fun h => List.mem_append_right [['.'], ['%', '2', 'e']] h
  have hall : ∀ dots ∈ [['.'], ['%', '2', 'e'], ['.', '.'], ['.', '%', '2', 'e'], ['%', '2', 'e', '.'],
      ['%', '2', 'e', '%', '2', 'e']], (dots.all fun c => 0x20 < c.toNat) = true := by decide
  intro c hc
  by_contra hle
  have hlower := List.all_iff_forall_prop.1 (hall _ hdots) c.toLower (List.mem_map_of_mem hc)
  rw [Domain.toLower_of_control (Nat.not_lt.1 hle)] at hlower
  exact hle hlower

theorem length_leave_le (names : List String) : (leave names).length ≤ names.length := by
  unfold leave
  split <;> simp

/-- A control before the slash changes the name. -/
theorem addName_controls_ne (hscheme : IsWebScheme scheme) (hne : controls ≠ [])
    (hcontrols : ∀ c ∈ controls, c.toNat ≤ 0x20) (names : List String) (part : List Char) :
    addName scheme names (part ++ controls) false ++ [""] ≠ closed (addName scheme names part true) := by
  have hnot : ¬ (isDot (part ++ controls) = true ∨ isDoubleDot (part ++ controls) = true) := fun h => by
    obtain ⟨c, hc⟩ := List.exists_mem_of_ne_nil _ hne
    have := lt_of_isDot h c (List.mem_append_right _ hc)
    have := hcontrols c hc
    omega
  rw [not_or] at hnot
  rw [addName_web hscheme, addName_web hscheme, if_neg hnot.2, if_neg hnot.1]
  intro heq
  have hlength := congrArg List.length heq
  by_cases hdouble : isDoubleDot part = true
  · have hle := length_leave_le names
    simp [hdouble, closed_empty] at hlength
    omega
  · by_cases hdot : isDot part = true
    · simp [hdouble, hdot, closed_empty] at hlength
    · rw [if_neg hdouble, if_neg hdot] at heq hlength
      by_cases hempty : String.ofList (escape .path part) = ""
      · simp [closed, hempty] at hlength
      · rw [closed_name hempty, List.append_assoc, List.append_cancel_left_eq] at heq
        have hescape := (List.cons.inj heq).1
        rw [String.ofList_inj, escape_append, List.append_right_eq_self] at hescape
        exact escape_ne_nil hne hescape

theorem unslashed_of_control {c : Char} (h : c.toNat ≤ 0x20) : isAnySlash c = false :=
  Text.forall_ascii (p := fun c => c.toNat ≤ 0x20 → isAnySlash c = false) (by decide)
    (Nat.lt_of_le_of_lt h (by decide)) h

/-- **When a slash at the end of a text ends the path**, and does nothing else: there must be no control
before it, and no other slash. -/
theorem closed_addNames_iff (hscheme : IsWebScheme scheme) (hcontrols : ∀ c ∈ controls, c.toNat ≤ 0x20)
    {s : Char} (hs : isAnySlash s = true) (back : List Char) :
    (addNames scheme [] (Text.parts isAnySlash (back ++ (controls ++ ['/'])))).dropLast ++ [""] =
        closed (addNames scheme [] (Text.parts isAnySlash back)) ↔
      controls = [] ∧ ∀ c ∈ (s :: back).getLast?, isAnySlash c = false := by
  obtain ⟨front, last, hparts, hlast⟩ := Text.exists_last_part isAnySlash back
  have hunslashed : ∀ c ∈ controls, isAnySlash c = false := fun c hc => unslashed_of_control (hcontrols c hc)
  have hback : Text.parts isAnySlash back = front ++ [last] := by
    simpa using hparts [] (List.forall_mem_nil _)
  have hslashed : Text.parts isAnySlash (back ++ (controls ++ ['/'])) =
      front ++ [last ++ controls] ++ [[]] := by
    rw [← List.append_assoc, Text.parts_append_separator rfl, hparts _ hunslashed]
    rfl
  set names := front.foldl (addName scheme · · false) [] with hnames
  have hleft : addNames scheme [] (Text.parts isAnySlash (back ++ (controls ++ ['/']))) =
      addName scheme names (last ++ controls) false ++ [""] := by
    rw [hslashed, addNames_append _ _ _ (by simp), List.foldl_append, ← hnames]
    exact (addName_of_isName hscheme isName_empty : addName scheme _ "".toList true = _)
  have hright : addNames scheme [] (Text.parts isAnySlash back) = addName scheme names last true := by
    rw [hback, addNames_append _ _ _ (by simp), ← hnames]
    rfl
  rw [hleft, hright, List.dropLast_concat]
  by_cases hnone : controls = []
  · rw [hnone, List.append_nil, addName_slash_iff hscheme]
    have hend : (∀ c ∈ (s :: back).getLast?, isAnySlash c = false) ↔
        ¬ ∀ c ∈ (s :: back).getLast?, isAnySlash c = true := by
      cases hget : (s :: back).getLast? with
      | none => simp at hget
      | some c => simp
    rw [hend, ← hlast s hs, and_iff_right rfl]
  · refine ⟨fun h => absurd h (addName_controls_ne hscheme hnone hcontrols _ _), fun h => absurd h.1 hnone⟩

/-! ## Authorities -/

variable {cs rest : List Char} {a : Authority} {r : Reference} {c : Char} {u v : Url} {text : String}

theorem head?_splitHost (bracketed : Bool) (cs : List Char) :
    ∀ c ∈ (splitHost bracketed cs).2.head?, c = ':' := by
  induction cs generalizing bracketed with
  | nil => simp [splitHost]
  | cons d cs ih =>
    by_cases hd : d = ':'
    · subst hd
      cases bracketed with
      | true => simpa [splitHost] using ih true
      | false => simp [splitHost]
    · rw [splitHost]
      · exact ih _
      · exact hd

/-- There is no host with a control at its end. -/
theorem parse_control (hc : c.toNat ≤ 0x20) (cs : List Char) {host : Host} :
    Host.parse (cs ++ [c]) ≠ .ok host := by
  rw [Host.parse]
  split
  · have hlast : (cs ++ [c]).getLast? ≠ some ']' := by
      rw [List.getLast?_concat]
      rintro ⟨⟩
      exact absurd hc (by decide)
    rw [Host.bracketed?, if_neg hlast]
    simp
  · rw [Domain.ascii?_control hc]
    simp

theorem userinfo_concat (hc : c ≠ '@') (cs : List Char) :
    ∃ front, (userinfo (cs ++ [c])).2 = front ++ [c] := by
  unfold userinfo
  split
  · exact ⟨(cs.reverse.takeWhile (· != '@')).reverse, by simp [hc]⟩
  · exact ⟨cs, rfl⟩

/-- There is no authority with a control at its end. -/
theorem parseAuthority_control (hscheme : IsWebScheme scheme) (hc : c.toNat ≤ 0x20)
    (hcs : ∀ d ∈ cs ++ [c], isAnySlash d = false) {p : Authority × List Char} :
    parseAuthority scheme (cs ++ [c]) ≠ .ok p := by
  intro h
  obtain ⟨a, rest⟩ := p
  obtain ⟨hhost, hnumber⟩ := parts_of_parseAuthority hscheme h
  have hdigits := (digits_of_portNumber? (fun d hd => hcs d (mem_of_mem_number hd)) hnumber).2
  have hne : ∀ d, 0x20 < d.toNat → c ≠ d := by
    rintro d hd rfl
    omega
  obtain ⟨front, hfront⟩ := userinfo_concat (hne '@' (by decide)) cs
  rw [hfront] at hhost hdigits
  have hjoin := splitHost_join false (front ++ [c])
  have hhead := head?_splitHost false (front ++ [c])
  obtain hnil | ⟨init, d, hinit⟩ := (splitHost false (front ++ [c])).2.eq_nil_or_concat'
  · rw [hnil, List.append_nil] at hjoin
    rw [hjoin] at hhost
    exact parse_control hc front hhost
  · rw [hinit] at hjoin hdigits hhead
    rw [← List.append_assoc] at hjoin
    obtain rfl := List.singleton_inj.1 (List.append_inj' hjoin rfl).2
    cases init with
    | nil => exact hne ':' (by decide) (hhead d rfl)
    | cons x init =>
      have hdigit : d.isDigit = true := hdigits d (by simp)
      exact absurd hdigit (Text.forall_ascii (p := fun d => d.toNat ≤ 0x20 → ¬ d.isDigit = true) (by decide)
        (Nat.lt_of_le_of_lt hc (by decide)) hc)

/-! ## Addresses -/

theorem getLast?_dropWhile {p : Char → Bool} (hne : cs.dropWhile p ≠ []) :
    (cs.dropWhile p).getLast? = cs.getLast? := by
  conv => rhs; rw [← List.takeWhile_append_dropWhile (p := p) (l := cs)]
  rw [List.getLast?_append_of_ne_nil _ hne]

theorem dropWhile_append_of_ne_nil {p : Char → Bool} (hne : cs.dropWhile p ≠ []) (rest : List Char) :
    (cs ++ rest).dropWhile p = cs.dropWhile p ++ rest := by
  rw [List.dropWhile_append, if_neg (by simpa using hne)]

theorem getLast?_filter {p : Char → Bool} (h : ∀ c ∈ cs.getLast?, p c = true) :
    (cs.filter p).getLast? = cs.getLast? := by
  obtain rfl | ⟨front, c, rfl⟩ := cs.eq_nil_or_concat'
  · rfl
  · have hc : p c = true := h c List.getLast?_concat
    simp [List.filter_append, hc]

/-- There is no authority without a host. -/
theorem ofAuthority_nil (hscheme : IsWebScheme scheme) (r : Reference) :
    ofAuthority scheme [] r = .error .emptyHost := by
  have hparse : parseAuthority scheme [] = .error .emptyHost := by
    rw [parseAuthority_web hscheme]
    rfl
  rw [ofAuthority, List.takeWhile_nil, hparse]
  rfl

/-- Where no slash follows the authority, the path has one name, which is empty. -/
theorem ofAuthority_unslashed (hscheme : IsWebScheme scheme) (hcs : ∀ c ∈ cs, isAnySlash c = false)
    (h : parseAuthority scheme cs = .ok (a, [])) (r : Reference) :
    ofAuthority scheme cs r =
      .ok ⟨scheme, some a, .names [""], r.queryText scheme, r.fragmentText⟩ := by
  have hnil : ∀ c ∈ ([] : List Char).head?, isAnySlash c = true := by simp
  have happend := ofAuthority_append hscheme hcs hnil r
  rw [List.append_nil, h] at happend
  rw [happend]
  simp only [Except.map, List.append_nil, absolutePath, hscheme.hasDomains, if_true]

/-- Where a slash follows it, the path has the names that come after the slash. -/
theorem ofAuthority_slashed (hscheme : IsWebScheme scheme) {front : List Char}
    (hfront : ∀ c ∈ front, isAnySlash c = false) {s : Char} (hs : isAnySlash s = true)
    (h : parseAuthority scheme front = .ok (a, [])) (back : List Char) (r : Reference) :
    ofAuthority scheme (front ++ s :: back) r =
      .ok ⟨scheme, some a, .names (addNames scheme [] (Text.parts isAnySlash back)), r.queryText scheme,
        r.fragmentText⟩ := by
  rw [ofAuthority_append hscheme hfront (by simpa using hs), h]
  simp only [Except.map, List.nil_append, absolutePath, hscheme.isSlash, hs, if_true, extend]

/-- Every text is free of slashes, or there is a first slash. -/
theorem exists_first_slash (cs : List Char) :
    (∀ c ∈ cs, isAnySlash c = false) ∨
      ∃ front s back, cs = front ++ s :: back ∧ (∀ c ∈ front, isAnySlash c = false) ∧
        isAnySlash s = true := by
  induction cs with
  | nil => exact .inl (List.forall_mem_nil _)
  | cons c cs ih =>
    by_cases hc : isAnySlash c = true
    · exact .inr ⟨[], c, cs, rfl, List.forall_mem_nil _, hc⟩
    · rw [Bool.not_eq_true] at hc
      obtain h | ⟨front, s, back, rfl, hfront, hs⟩ := ih
      · exact .inl (List.forall_mem_cons.2 ⟨hc, h⟩)
      · exact .inr ⟨c :: front, s, back, rfl, List.forall_mem_cons.2 ⟨hc, hfront⟩, hs⟩

/-- What an address is that is read from what follows the two slashes. -/
theorem authority_of_ofAuthority (hscheme : IsWebScheme scheme) {front back : List Char}
    (hfront : ∀ c ∈ front, isAnySlash c = false) (hback : ∀ c ∈ back.head?, isAnySlash c = true)
    (h : ofAuthority scheme (front ++ back) r = .ok v) : ∃ a, parseAuthority scheme front = .ok (a, []) := by
  rw [ofAuthority_append hscheme hfront hback] at h
  cases hparsed : parseAuthority scheme front with
  | error => simp [hparsed, Except.map] at h
  | ok p =>
    obtain ⟨a, rest⟩ := p
    obtain rfl := rest_of_parseAuthority hscheme hfront hparsed
    exact ⟨a, rfl⟩

/-- Controls and the slash are no end of an authority. -/
theorem ofAuthority_control (hscheme : IsWebScheme scheme)
    (hfree : ∀ c ∈ cs.dropWhile isAnySlash, isAnySlash c = false) (hne : controls ≠ [])
    (hcontrols : ∀ c ∈ controls, c.toNat ≤ 0x20) (r : Reference) :
    ofAuthority scheme ((cs ++ (controls ++ ['/'])).dropWhile isAnySlash) r ≠ .ok v := by
  intro h
  obtain ⟨init, d, rfl⟩ := controls.eq_nil_or_concat'.resolve_left hne
  have hunslashed : ∀ c ∈ init ++ [d], isAnySlash c = false := fun c hc =>
    unslashed_of_control (hcontrols c hc)
  have hhead : ∀ c ∈ (init ++ [d] ++ ['/']).head?, isAnySlash c = false := by
    rw [List.head?_append_of_ne_nil _ (by simp)]
    exact fun c hc => hunslashed c (List.mem_of_head? hc)
  have hall : ∀ c ∈ cs.dropWhile isAnySlash ++ init ++ [d], isAnySlash c = false := by
    rw [List.append_assoc]
    exact fun c hc => (List.mem_append.1 hc).elim (hfree c) (hunslashed c)
  rw [Text.dropWhile_append_of_head hhead, ← List.append_assoc, ← List.append_assoc] at h
  obtain ⟨a, ha⟩ := authority_of_ofAuthority hscheme hall (by simp [isAnySlash]) h
  exact parseAuthority_control hscheme (hcontrols d (by simp)) hall ha

/-- **A slash at the end of what follows the two slashes** ends the path, and does nothing else, unless the
text ends with a control or a backslash. -/
theorem ofAuthority_slash (hscheme : IsWebScheme scheme) (hcontrols : ∀ c ∈ controls, c.toNat ≤ 0x20)
    (hlast : controls = [] → cs.getLast? ≠ some '/')
    (h : ofAuthority scheme ((cs ++ (controls ++ ['/'])).dropWhile isAnySlash) r = .ok v) (q : Reference) :
    ∃ u names more, ofAuthority scheme (cs.dropWhile isAnySlash) q = .ok u ∧ u.scheme = v.scheme ∧
      u.authority = v.authority ∧ u.path = .names names ∧ v.path = .names more ∧
      (more.dropLast ++ [""] = closed names ↔ controls = [] ∧ ∀ c ∈ cs.getLast?, c ≠ '\\') := by
  obtain hfree | ⟨front, s, back, hcs, hfront, hs⟩ := exists_first_slash (cs.dropWhile isAnySlash)
  · by_cases hnone : controls = []
    · subst hnone
      rw [List.nil_append] at h
      by_cases hempty : cs.dropWhile isAnySlash = []
      · have hdrop : (cs ++ ['/']).dropWhile isAnySlash = [] := by
          rw [List.dropWhile_append, hempty]
          rfl
        rw [hdrop, ofAuthority_nil hscheme] at h
        cases h
      · rw [dropWhile_append_of_ne_nil hempty] at h
        obtain ⟨a, ha⟩ := authority_of_ofAuthority hscheme hfree (by simp [isAnySlash]) h
        rw [ofAuthority_slashed hscheme hfree (s := '/') rfl ha [] r] at h
        cases h
        refine ⟨_, [""], [""], ofAuthority_unslashed hscheme hfree ha q, rfl, rfl, rfl, ?_, ?_⟩
        · exact congrArg UrlPath.names (addName_of_isName hscheme isName_empty)
        · refine iff_of_true rfl ⟨rfl, fun c hc => ?_⟩
          rw [← getLast?_dropWhile hempty] at hc
          rintro rfl
          exact absurd (hfree _ (List.mem_of_getLast? hc)) (by decide)
    · exact absurd h (ofAuthority_control hscheme hfree hnone hcontrols r)
  · have hne : cs.dropWhile isAnySlash ≠ [] := by simp [hcs]
    have hget : (s :: back).getLast? = cs.getLast? := by
      rw [← getLast?_dropWhile hne, hcs, List.getLast?_append_of_ne_nil _ (List.cons_ne_nil _ _)]
    rw [dropWhile_append_of_ne_nil hne, hcs, List.append_assoc, List.cons_append] at h
    obtain ⟨a, ha⟩ := authority_of_ofAuthority hscheme hfront (by simpa using hs) h
    rw [ofAuthority_slashed hscheme hfront hs ha] at h
    cases h
    have hu := ofAuthority_slashed hscheme hfront hs ha back q
    refine ⟨_, _, _, (congrArg (ofAuthority scheme · q) hcs).trans hu, rfl, rfl, rfl, rfl, ?_⟩
    rw [closed_addNames_iff hscheme hcontrols hs, hget]
    refine and_congr_right fun hnone => forall₂_congr fun c hc => ?_
    have hslash : c ≠ '/' := by
      rintro rfl
      exact hlast hnone hc
    simp [isAnySlash, hslash]

/-- What is found does not depend on the query and the fragment. -/
theorem ofAuthority_reference (h : ofAuthority scheme cs r = .ok v) (q : Reference) :
    ofAuthority scheme cs q =
      .ok { v with query := q.queryText scheme, fragment := q.fragmentText } := by
  simp only [ofAuthority, bind, Except.bind, pure, Except.pure] at h ⊢
  split at h
  · cases h
  · cases h
    rfl

theorem unmarked_of_ofAuthority (h : ofAuthority scheme cs r = .ok u) :
    u.query = none ∧ u.fragment = none ↔ r.Unmarked := by
  have hself := Except.ok.inj (h.symm.trans (ofAuthority_reference h r))
  have hquery : u.query = r.queryText scheme := congrArg Url.query hself
  have hfragment : u.fragment = r.fragmentText := congrArg Url.fragment hself
  rw [hquery, hfragment]
  exact and_congr Option.map_eq_none_iff Option.map_eq_none_iff

/-- A slash at the end of the text of an address ends the path, and does nothing else. -/
def KeepsPath (text : String) (u : Url) : Prop :=
  if u.query = none ∧ u.fragment = none then
    ∀ c ∈ text.toList.getLast?, c ≠ '\\' ∧ 0x20 < c.toNat
  else u.path.text.toList.getLast? = some '/'

/-- A text with a slash at its end. -/
def slashed (text : String) : String := if text.toList.getLast? = some '/' then text else text ++ "/"

theorem isWebAddress_slashed (h : isWebAddress text = true) : isWebAddress (slashed text) = true := by
  obtain ⟨scheme, tail, hscheme, htext⟩ := toList_of_isWebAddress h
  unfold slashed
  split
  · exact h
  · have hmore : (text ++ "/").toList = scheme.toList ++ ':' :: '/' :: '/' :: (tail ++ ['/']) := by
      rw [String.toList_append, htext, List.append_assoc]
      rfl
    exact isWebAddress_of_toList hscheme hmore

theorem toList_text_concat (front : List String) (n : String) :
    (UrlPath.names (front ++ [n])).text.toList = (UrlPath.names front).text.toList ++ '/' :: n.toList := by
  rw [toList_text_names, toList_text_names, List.flatMap_append, List.flatMap_singleton]

theorem getLast?_text_names (hnames : ∀ n ∈ names, IsName n) :
    (UrlPath.names names).text.toList.getLast? = some '/' ↔ names.getLast? = some "" := by
  obtain rfl | ⟨front, n, rfl⟩ := names.eq_nil_or_concat'
  · decide
  · rw [toList_text_concat, List.getLast?_append_of_ne_nil _ (List.cons_ne_nil _ _), List.getLast?_concat,
      Option.some_inj]
    by_cases hn : n = ""
    · subst hn
      decide
    · refine iff_of_false (fun h => ?_) hn
      obtain ⟨init, c, hinit⟩ := n.toList.eq_nil_or_concat'.resolve_left (mt String.toList_eq_nil_iff.1 hn)
      rw [hinit, ← List.cons_append, List.getLast?_concat] at h
      obtain rfl := Option.some.inj h
      exact absurd ((hnames n (by simp)).unslashed '/' (by simp [hinit])) (by decide)

/-- The text of a path to which a slash is added. -/
theorem text_closed (hnames : ∀ n ∈ names, IsName n) :
    (UrlPath.names (closed names)).text = slashed (UrlPath.names names).text := by
  rw [slashed, closed]
  by_cases hlast : names.getLast? = some ""
  · rw [if_pos hlast, if_pos ((getLast?_text_names hnames).2 hlast)]
  · rw [if_neg hlast, if_neg (mt (getLast?_text_names hnames).1 hlast), ← String.toList_inj,
      toList_text_concat, String.toList_append]
    rfl

/-- What ends with a slash has a path that ends with one. -/
theorem ofAuthority_closed (hscheme : IsWebScheme scheme) (hlast : cs.getLast? = some '/')
    (h : ofAuthority scheme (cs.dropWhile isAnySlash) r = .ok v) (hpath : v.path = .names names) :
    names.getLast? = some "" := by
  have hne : cs.dropWhile isAnySlash ≠ [] := by
    intro hempty
    rw [hempty, ofAuthority_nil hscheme] at h
    cases h
  rw [← getLast?_dropWhile hne] at hlast
  obtain hfree | ⟨front, s, back, hcs, hfront, hs⟩ := exists_first_slash (cs.dropWhile isAnySlash)
  · exact absurd (hfree _ (List.mem_of_getLast? hlast)) (by decide)
  · rw [hcs] at h hlast
    rw [List.getLast?_append_of_ne_nil _ (List.cons_ne_nil _ _)] at hlast
    obtain ⟨a, ha⟩ := authority_of_ofAuthority hscheme hfront (by simpa using hs) h
    rw [ofAuthority_slashed hscheme hfront hs ha] at h
    cases h
    obtain ⟨first, last, hparts, hempty⟩ := Text.exists_last_part isAnySlash back
    have hback : Text.parts isAnySlash back = first ++ [last] := by
      simpa using hparts [] (List.forall_mem_nil _)
    have hlastEmpty : last = [] := (hempty s hs).2 fun c hc => by
      obtain rfl := Option.some.inj (hlast.symm.trans hc)
      rfl
    have hnames := UrlPath.names.inj hpath
    rw [hback, hlastEmpty, addNames_append _ _ _ (by simp)] at hnames
    have hend : addName scheme (first.foldl (addName scheme · · false) []) "".toList true = _ :=
      addName_of_isName hscheme isName_empty
    rw [← hnames]
    exact (congrArg List.getLast? hend).trans List.getLast?_concat

theorem getLast?_web (init : List Char) (d : Char) :
    (scheme.toList ++ ':' :: '/' :: '/' :: (init ++ [d])).getLast? = some d := by
  rw [← List.cons_append, ← List.cons_append, ← List.cons_append, ← List.append_assoc, List.getLast?_concat]

/-- What an address of the web is read from. -/
theorem parse_web (hscheme : IsWebScheme scheme)
    (htext : text.toList = scheme.toList ++ ':' :: '/' :: '/' :: cs) :
    parse text = ofAuthority scheme ((Reference.ofChars (Reference.cleanEnd cs)).body.dropWhile isAnySlash)
      (Reference.ofChars (Reference.cleanEnd cs)) := by
  rw [parse_of_body hscheme (congrArg Reference.body (ofText_web hscheme htext)), ofText_web hscheme htext]
  rfl

/-- What is found in a text, and what is found with a slash at its end. -/
structure Compared (text : String) (u v : Url) : Prop where
  found : parse text = .ok u
  scheme : u.scheme = v.scheme
  authority : u.authority = v.authority
  path : ∃ names more, u.path = .names names ∧ v.path = .names more ∧
    (more.dropLast ++ [""] = closed names ↔ KeepsPath text u)

/-- Nothing is added to a text with a slash at its end. -/
theorem compared_self (haddress : isWebAddress text = true) (hlast : text.toList.getLast? = some '/')
    (h : parse text = .ok v) : Compared text v v := by
  obtain ⟨names, hne, hpath, hnames⟩ := (isWeb_of_parse haddress h).path
  refine ⟨h, rfl, rfl, names, names, hpath, hpath, ?_⟩
  rw [dropLast_eq_closed_iff hne, KeepsPath]
  split
  · next hunmarked =>
    refine iff_of_true ?_ (by simp [hlast])
    obtain ⟨scheme, tail, hscheme, htext⟩ := toList_of_isWebAddress haddress
    rw [parse_web hscheme htext] at h
    rw [Reference.body_of_unmarked ((unmarked_of_ofAuthority h).1 hunmarked)] at h
    obtain rfl | ⟨init, d, rfl⟩ := tail.eq_nil_or_concat'
    · have hnil : (Reference.cleanEnd []).dropWhile isAnySlash = [] := rfl
      rw [hnil, ofAuthority_nil hscheme] at h
      cases h
    · have hd : text.toList.getLast? = some d := by
        rw [htext, getLast?_web]
      obtain rfl := Option.some.inj (hd.symm.trans hlast)
      rw [Reference.cleanEnd_append_slash] at h
      exact ofAuthority_closed hscheme List.getLast?_concat h hpath
  · rw [hpath, getLast?_text_names hnames]

/-- After a mark the slash has nothing to do with the path. -/
theorem compared_marked (hscheme : IsWebScheme scheme) (hmarked : ¬ Reference.Unmarked (Reference.ofChars cs))
    (hparse : parse text =
      ofAuthority scheme ((Reference.ofChars cs).body.dropWhile isAnySlash) (Reference.ofChars cs))
    (h : ofAuthority scheme ((Reference.ofChars (cs ++ rest)).body.dropWhile isAnySlash) r = .ok v) :
    ∃ u, Compared text u v := by
  rw [Reference.body_append_of_marked hmarked] at h
  have hu := ofAuthority_reference h (Reference.ofChars cs)
  obtain ⟨names, hne, hpath, hnames⟩ := (isWeb_of_ofAuthority hscheme h).path
  refine ⟨_, hparse.trans hu, rfl, rfl, names, names, hpath, hpath, ?_⟩
  rw [dropLast_eq_closed_iff hne, KeepsPath, if_neg (mt (unmarked_of_ofAuthority hu).1 hmarked)]
  dsimp only
  rw [hpath, getLast?_text_names hnames]

/-- Without a mark the slash follows what does not count at the end of the text. -/
theorem compared_unmarked (hscheme : IsWebScheme scheme)
    (hunmarked : Reference.Unmarked (Reference.ofChars cs))
    (hparse : parse text =
      ofAuthority scheme ((Reference.ofChars cs).body.dropWhile isAnySlash) (Reference.ofChars cs))
    (hcontrols : ∀ d ∈ controls, d.toNat ≤ 0x20) (hc : text.toList.getLast? = some c) (hne : c ≠ '/')
    (hnone : controls = [] ↔ 0x20 < c.toNat) (hlast : controls = [] → cs.getLast? = some c)
    (h : ofAuthority scheme
      ((Reference.ofChars (cs ++ (controls ++ ['/']))).body.dropWhile isAnySlash) r = .ok v) :
    ∃ u, Compared text u v := by
  obtain ⟨hsharp, hask⟩ := Reference.not_mem_of_unmarked hunmarked
  have hend : ∀ mark, 0x20 < mark.toNat → mark ≠ '/' → mark ∉ controls ++ ['/'] := by
    intro mark hmark hslash hmem
    obtain hmem | hmem := List.mem_append.1 hmem
    · exact absurd (hcontrols mark hmem) (Nat.not_le.2 hmark)
    · exact hslash (List.mem_singleton.1 hmem)
  have hbody : (Reference.ofChars (cs ++ (controls ++ ['/']))).body = cs ++ (controls ++ ['/']) := by
    rw [Reference.ofChars_unmarked]
    · exact fun h => (List.mem_append.1 h).elim hsharp (hend '#' (by decide) (by decide))
    · exact fun h => (List.mem_append.1 h).elim hask (hend '?' (by decide) (by decide))
  rw [hbody] at h
  rw [Reference.body_of_unmarked hunmarked] at hparse
  obtain ⟨u, names, more, hu, hsame, hauthority, hnames, hmore, hiff⟩ :=
    ofAuthority_slash hscheme hcontrols (fun hempty => by simp [hlast hempty, hne]) h (Reference.ofChars cs)
  refine ⟨u, hparse.trans hu, hsame, hauthority, names, more, hnames, hmore, ?_⟩
  rw [hiff, KeepsPath, if_pos ((unmarked_of_ofAuthority hu).2 hunmarked), hc]
  constructor
  · rintro ⟨hempty, hback⟩ d hd
    obtain rfl := Option.some.inj hd
    exact ⟨hback c (hlast hempty), hnone.1 hempty⟩
  · intro hkeeps
    have hempty := hnone.2 (hkeeps c rfl).2
    exact ⟨hempty, fun d hd => (hkeeps d (hlast hempty ▸ hd)).1⟩

/-- **When a slash at the end of the text of an address ends the path.** -/
theorem exists_compared (haddress : isWebAddress text = true)
    (hlast : ∀ c ∈ text.toList.getLast?, Reference.counts c = true) (h : parse (slashed text) = .ok v) :
    ∃ u, Compared text u v := by
  by_cases hslash : text.toList.getLast? = some '/'
  · rw [slashed, if_pos hslash] at h
    exact ⟨v, compared_self haddress hslash h⟩
  · rw [slashed, if_neg hslash] at h
    obtain ⟨scheme, tail, hscheme, htext⟩ := toList_of_isWebAddress haddress
    obtain rfl | ⟨init, d, rfl⟩ := tail.eq_nil_or_concat'
    · exact absurd (by simp [htext]) hslash
    have hd : text.toList.getLast? = some d := by
      rw [htext, getLast?_web]
    have hcounts : ∀ c ∈ (init ++ [d]).getLast?, Reference.counts c = true := by
      rw [List.getLast?_concat, ← hd]
      exact hlast
    have hmore : (text ++ "/").toList = scheme.toList ++ ':' :: '/' :: '/' :: (init ++ [d] ++ ['/']) := by
      rw [String.toList_append, htext, List.append_assoc]
      rfl
    obtain ⟨controls, hfilter, hcontrols, hnone⟩ := Reference.exists_controls hcounts
    rw [parse_web hscheme hmore, Reference.cleanEnd_append_slash, hfilter, List.append_assoc] at h
    have hparse := parse_web hscheme htext
    by_cases hunmarked : Reference.Unmarked (Reference.ofChars (Reference.cleanEnd (init ++ [d])))
    · refine compared_unmarked hscheme hunmarked hparse hcontrols hd (fun hd' => hslash (hd' ▸ hd)) ?_ ?_ h
      · rw [hnone, List.getLast?_concat]
        exact ⟨fun h => h d rfl, fun h c hc => Option.some.inj hc ▸ h⟩
      · rintro rfl
        rw [List.append_nil] at hfilter
        rw [← hfilter, getLast?_filter hcounts, List.getLast?_concat]
    · exact compared_marked hscheme hunmarked hparse h

end Url

end ContentSync
