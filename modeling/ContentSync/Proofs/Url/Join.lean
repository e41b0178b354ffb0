import ContentSync.Proofs.Url.Web

/-!
# Addresses that are joined to an origin

What follows the origin of an address can be joined to the origin again, without the slashes at its start.
That gives the same place in most cases. It does not if there is more than one slash at the start, for
then names are lost, or if the first name looks like a scheme, for then it is taken for one. In both cases
the path becomes shorter.

* `Url.SamePlace` — two addresses that differ in who asks and in the fragment at most;
* `Url.afterSlashes`, `Url.ofText_afterSlashes` — what is joined;
* `Url.join_unschemed` — the address that is found if no scheme is;
* `Url.length_of_ofScheme` — a scheme takes its place from the path;
* `Url.Rejoins`, `Url.samePlace_join_iff` — when the place is the same.
-/

set_option autoImplicit false

namespace ContentSync.Url

variable {u v : Url} {a : Authority} {scheme : String} {cs rest : List Char} {r : Reference}
  {names : List String}

/-- Two addresses that differ in who asks and in the fragment at most. -/
structure SamePlace (u v : Url) : Prop where
  scheme : u.scheme = v.scheme
  host : u.authority.map Authority.host = v.authority.map Authority.host
  portNumber : u.authority.map Authority.portNumber = v.authority.map Authority.portNumber
  path : u.path = v.path
  query : u.query = v.query

/-! ## What is joined -/

/-- A text without the slashes at its start. -/
def afterSlashes (cs : List Char) : List Char := cs.dropWhile (· == '/')

theorem afterSlashes_slash (cs : List Char) : afterSlashes ('/' :: cs) = afterSlashes cs := rfl

theorem length_afterSlashes_le (cs : List Char) : (afterSlashes cs).length ≤ cs.length :=
  List.length_dropWhile_le _ _

theorem head?_afterSlashes {c : Char} (hc : c ∈ (afterSlashes cs).head?) : c ≠ '/' := by
  have hnot := List.head?_dropWhile_not (· == '/') cs
  rw [afterSlashes, Option.mem_def] at hc
  rw [hc] at hnot
  simpa using hnot

theorem afterSlashes_append (hrest : ∀ c ∈ rest.head?, c ≠ '/') :
    afterSlashes (cs ++ rest) = afterSlashes cs ++ rest :=
  Text.dropWhile_append_of_head (fun c hc => beq_false_of_ne (hrest c hc)) cs

theorem ascii_of_not_escapes {set : EscapeSet} {c : Char} (h : set.escapes c = false) : c.toNat < 0x80 := by
  simp only [EscapeSet.escapes, Bool.or_eq_false_iff, decide_eq_false_iff_not] at h
  omega

theorem of_not_escapes_path {c : Char} (h : EscapeSet.path.escapes c = false) :
    0x20 < c.toNat ∧ c ≠ '#' ∧ c ≠ '?' :=
  Text.forall_ascii (p := fun c => EscapeSet.path.escapes c = false → 0x20 < c.toNat ∧ c ≠ '#' ∧ c ≠ '?')
    (by decide) (ascii_of_not_escapes h) h

theorem of_not_escapes_webQuery {c : Char} (h : EscapeSet.webQuery.escapes c = false) :
    0x20 < c.toNat ∧ c ≠ '#' :=
  Text.forall_ascii (p := fun c => EscapeSet.webQuery.escapes c = false → 0x20 < c.toNat ∧ c ≠ '#')
    (by decide) (ascii_of_not_escapes h) h

theorem of_not_escapes_fragment {c : Char} (h : EscapeSet.fragment.escapes c = false) :
    0x20 < c.toNat :=
  Text.forall_ascii (p := fun c => EscapeSet.fragment.escapes c = false → 0x20 < c.toNat)
    (by decide) (ascii_of_not_escapes h) h

/-- A part of an address with its mark, if there is one. -/
def withMark (mark : Char) : Option (List Char) → List Char
  | none => []
  | some cs => mark :: cs

theorem toList_marked (mark : Char) (text : Option String) :
    (marked (String.singleton mark) text).toList = withMark mark (text.map String.toList) := by
  cases text with
  | none => rfl
  | some text => simp [marked, withMark]

theorem divide_withMark {mark : Char} (h : mark ∉ cs) (part : Option (List Char)) :
    Reference.divide mark (cs ++ withMark mark part) = (cs, part) := by
  cases part with
  | none => rw [withMark, List.append_nil, Reference.divide_of_not_mem h]
  | some part => exact Reference.divide_append h part

/-- The characters of a path. -/
theorem of_mem_text_names (hnames : ∀ n ∈ names, IsName n) {c : Char}
    (hc : c ∈ (UrlPath.names names).text.toList) : EscapeSet.path.escapes c = false := by
  rw [toList_text_names] at hc
  obtain ⟨n, hn, hc⟩ := List.mem_flatMap.1 hc
  obtain rfl | hc := List.mem_cons.1 hc
  · decide
  · exact (hnames n hn).plain c hc

/-- What an address holds after its origin is divided as it was put together. -/
theorem ofText_afterSlashes (hnames : ∀ n ∈ names, IsName n) (hpath : u.path = .names names)
    (hquery : ∀ q ∈ u.query, ∀ c ∈ q.toList, EscapeSet.webQuery.escapes c = false)
    (hfragment : ∀ f ∈ u.fragment, ∀ c ∈ f.toList, EscapeSet.fragment.escapes c = false) :
    Reference.ofText (String.ofList (afterSlashes u.afterOrigin.toList)) =
      ⟨afterSlashes (UrlPath.names names).text.toList, u.query.map String.toList,
        u.fragment.map String.toList⟩ := by
  have hbody : ∀ c ∈ afterSlashes (UrlPath.names names).text.toList, 0x20 < c.toNat ∧ c ≠ '#' ∧ c ≠ '?' :=
    fun c hc => of_not_escapes_path (of_mem_text_names hnames ((List.dropWhile_sublist _).mem hc))
  have hqueryPart : ∀ c ∈ withMark '?' (u.query.map String.toList), 0x20 < c.toNat ∧ c ≠ '#' := by
    intro c hc
    cases hq : u.query with
    | none => simp [hq, withMark] at hc
    | some q =>
      rw [hq] at hc
      obtain rfl | hc := List.mem_cons.1 hc
      · decide
      · exact of_not_escapes_webQuery (hquery q hq c hc)
  have hfragmentPart : ∀ c ∈ withMark '#' (u.fragment.map String.toList), 0x20 < c.toNat := by
    intro c hc
    cases hf : u.fragment with
    | none => simp [hf, withMark] at hc
    | some f =>
      rw [hf] at hc
      obtain rfl | hc := List.mem_cons.1 hc
      · decide
      · exact of_not_escapes_fragment (hfragment f hf c hc)
  have hhead : ∀ c ∈ (withMark '?' (u.query.map String.toList) ++
      withMark '#' (u.fragment.map String.toList)).head?, c ≠ '/' := by
    cases u.query <;> cases u.fragment <;> simp [withMark]
  have htext : afterSlashes u.afterOrigin.toList = afterSlashes (UrlPath.names names).text.toList ++
      (withMark '?' (u.query.map String.toList) ++ withMark '#' (u.fragment.map String.toList)) := by
    rw [afterOrigin, hpath, String.toList_append, String.toList_append, List.append_assoc,
      show "?" = String.singleton '?' from rfl, show "#" = String.singleton '#' from rfl, toList_marked,
      toList_marked, afterSlashes_append hhead]
  have hclean : ∀ c ∈ afterSlashes u.afterOrigin.toList, 0x20 < c.toNat := by
    rw [htext]
    intro c hc
    obtain hc | hc := List.mem_append.1 hc
    · exact (hbody c hc).1
    · exact (List.mem_append.1 hc).elim (fun hc => (hqueryPart c hc).1) (hfragmentPart c)
  have hnoFragment : '#' ∉ afterSlashes (UrlPath.names names).text.toList ++
      withMark '?' (u.query.map String.toList) := fun hc =>
    (List.mem_append.1 hc).elim (fun hc => (hbody _ hc).2.1 rfl) fun hc => (hqueryPart _ hc).2 rfl
  rw [Reference.ofText, String.toList_ofList, Reference.clean_eq_self hclean, htext, ← List.append_assoc,
    Reference.ofChars, divide_withMark hnoFragment]
  dsimp only
  rw [divide_withMark fun hc => (hbody _ hc).2.2 rfl]

/-! ## Without a scheme -/

theorem extend_nil (hscheme : IsWebScheme scheme) : extend scheme [] [] = .names [""] :=
  congrArg UrlPath.names (addName_of_isName hscheme isName_empty)

/-- A text that starts with no slash takes the place of the last name. -/
theorem relative_unslashed {b : Url} (hne : cs ≠ []) (hhead : ∀ c ∈ cs.head?, isAnySlash c = false) :
    relative b names cs r = .ok { b with
      path := extend b.scheme names.dropLast cs, query := r.queryText b.scheme,
      fragment := r.fragmentText } := by
  obtain ⟨c, rest, rfl⟩ := List.exists_cons_of_ne_nil hne
  have hc : isAnySlash c = false := hhead c rfl
  rw [relative.eq_def]
  dsimp only
  split
  · next heq => cases heq
  · next heq =>
    cases heq
    exact absurd hc (by decide)
  · next heq =>
    cases heq
    rw [List.takeWhile_cons_of_neg (by simp [hc]), if_neg (by simp), if_neg (by simp [hc])]

/-- The address that is found if no scheme is. -/
theorem join_unschemed {b : Url} {text : String} (hscheme : IsWebScheme b.scheme)
    (hpath : b.path = .names names) (hr : Reference.ofText text = r) (hne : r.body ≠ [])
    (hhead : ∀ c ∈ r.body.head?, isAnySlash c = false) (hnone : scheme? r.body = none) :
    join b text = .ok { b with
      path := extend b.scheme names.dropLast r.body, query := r.queryText b.scheme,
      fragment := r.fragmentText } := by
  rw [join, resolve.eq_def]
  dsimp only
  rw [hr, hnone]
  dsimp only
  rw [ofBase.eq_def, if_neg (by simp [hne]), hpath]
  dsimp only
  rw [if_neg hscheme.ne_file, relative_unslashed hne hhead]

/-- The same where there is nothing to take the place of. -/
theorem join_unschemed_top {b : Url} {text : String} (hscheme : IsWebScheme b.scheme)
    (hpath : b.path = .names [""]) (hquery : b.query = none) (hr : Reference.ofText text = r)
    (hhead : ∀ c ∈ r.body.head?, isAnySlash c = false) (hnone : scheme? r.body = none) :
    join b text = .ok { b with
      path := extend b.scheme [] r.body, query := r.queryText b.scheme, fragment := r.fragmentText } := by
  by_cases hne : r.body = []
  · rw [join, resolve.eq_def]
    dsimp only
    rw [hr, hnone, hne, extend_nil hscheme, ← hpath]
    dsimp only
    rw [ofBase.eq_def]
    split
    · next hfragment =>
      simp only [Bool.and_eq_true, Option.isNone_iff_eq_none] at hfragment
      rw [Reference.queryText, hfragment.1.2, Option.map_none, ← hquery]
    · have hquery' : (if r.query.isSome then r.queryText b.scheme else b.query) = r.queryText b.scheme := by
        cases hr : r.query <;> simp [Reference.queryText, hr, hquery]
      rw [hpath]
      dsimp only
      rw [if_neg hscheme.ne_file, hne, relative, hquery', hpath]
  · exact join_unschemed hscheme hpath hr hne hhead hnone

/-! ## With a scheme -/

theorem append_of_scheme? {s : String} (h : scheme? cs = some (s, rest)) :
    ∃ front, cs = front ++ ':' :: rest := by
  unfold scheme? at h
  split at h
  · split at h
    · next heq =>
      cases h
      exact ⟨cs.takeWhile isSchemeChar, heq ▸ (List.takeWhile_append_dropWhile).symm⟩
    · cases h
  · cases h

theorem scheme_of_ofAuthority (h : ofAuthority scheme cs r = .ok v) : v.scheme = scheme := by
  simp only [ofAuthority, bind, Except.bind, pure, Except.pure] at h
  split at h
  · cases h
  · cases h
    rfl

theorem scheme_of_single (host : Authority) (l : List String) (cs : List Char)
    {file : Authority → UrlPath → Url} (hfile : ∀ host path, (file host path).scheme = "file") :
    (ofFile.single file host l cs).scheme = "file" := by
  unfold ofFile.single
  split
  · exact hfile _ _
  · split
    · exact hfile _ _
    · exact hfile _ _

theorem scheme_of_ofFile (h : ofFile none cs r = .ok v) : v.scheme = "file" := by
  simp only [ofFile, Option.bind_none, Option.map_none, bind, Except.bind, pure, Except.pure] at h
  repeat' split at h
  all_goals cases h
  all_goals first
    | contradiction
    | rfl
    | exact scheme_of_single _ _ _ fun _ _ => rfl

theorem length_extend_le (hscheme : IsWebScheme scheme) (hcs : ∀ c ∈ cs, EscapeSet.path.escapes c = false) :
    (extend scheme [] cs).text.toList.length ≤ cs.length + 1 := by
  rw [extend, length_text_names, hscheme.isSlash]
  have hparts : ∀ part ∈ Text.parts isAnySlash cs, ∀ c ∈ part, EscapeSet.path.escapes c = false :=
    fun part hpart c hc => hcs c (Text.mem_parts hpart hc).1
  refine Nat.le_trans (pathLength_addNames_le hscheme hparts) ?_
  rw [Text.sum_length_parts, show pathLength [] = 0 from rfl, Nat.zero_add]

theorem length_absolutePath_le (hscheme : IsWebScheme scheme)
    (hcs : ∀ c ∈ cs, EscapeSet.path.escapes c = false) :
    (absolutePath scheme cs).text.toList.length ≤ cs.length + 1 := by
  cases cs with
  | nil =>
    rw [absolutePath, if_pos hscheme.hasDomains]
    decide
  | cons c cs =>
    rw [absolutePath]
    split
    · exact Nat.le_succ_of_le (length_extend_le hscheme fun d hd => hcs d (List.mem_cons_of_mem _ hd))
    · exact length_extend_le hscheme hcs

theorem length_ofAuthority_le (hscheme : IsWebScheme scheme)
    (hcs : ∀ c ∈ cs, EscapeSet.path.escapes c = false) (h : ofAuthority scheme cs r = .ok v) :
    v.path.text.toList.length ≤ cs.length + 1 := by
  obtain ⟨a, -, rfl⟩ := eq_of_ofAuthority hscheme h
  refine Nat.le_trans (length_absolutePath_le hscheme fun c hc => hcs c ?_) ?_
  · exact (List.dropWhile_sublist _).mem hc
  · exact Nat.succ_le_succ (List.length_dropWhile_le _ _)

theorem length_relative_le {b : Url} (hscheme : IsWebScheme b.scheme)
    (hpath : b.path = .names [""]) (hcs : ∀ c ∈ cs, EscapeSet.path.escapes c = false)
    (h : relative b [""] cs r = .ok v) : v.path.text.toList.length ≤ cs.length + 1 := by
  rw [relative.eq_def] at h
  dsimp only at h
  split at h
  · cases h
    rw [hpath]
    decide
  · next rest =>
    have hrest := length_ofAuthority_le hscheme (fun c hc => hcs c (by simp [hc])) h
    simp only [List.length_cons]
    omega
  · next c rest _ =>
    split at h
    · have hrest := length_ofAuthority_le hscheme
        (fun d hd => hcs d ((List.dropWhile_sublist _).mem hd)) h
      have hdrop := List.length_dropWhile_le isAnySlash (c :: rest)
      omega
    · split at h
      · cases h
        exact Nat.le_succ_of_le (length_extend_le hscheme fun d hd => hcs d (List.mem_cons_of_mem _ hd))
      · cases h
        exact length_extend_le hscheme hcs

/-- A scheme in front of a text takes its place from the path. -/
theorem length_of_ofScheme {b : Url} {s : String} (hscheme : IsWebScheme b.scheme)
    (hpath : b.path = .names [""]) (hcs : ∀ c ∈ cs, EscapeSet.path.escapes c = false)
    (h : ofScheme (some b) s cs r = .ok v) (hv : v.scheme = b.scheme) :
    v.path.text.toList.length ≤ cs.length + 1 := by
  rw [ofScheme.eq_def] at h
  dsimp only at h
  split at h
  · rw [Option.filter_some_neg (by simpa using hscheme.ne_file)] at h
    exact absurd ((scheme_of_ofFile h).symm.trans hv).symm hscheme.ne_file
  · split at h
    · split at h
      · next found hfound =>
        obtain ⟨heq, -⟩ := Option.filter_eq_some_iff.1 hfound
        cases heq
        rw [hpath] at h
        exact length_relative_le hscheme hpath hcs h
      · have hs : s = b.scheme := (scheme_of_ofAuthority h).symm.trans hv
        have hdrop := length_ofAuthority_le (hs ▸ hscheme)
          (fun c hc => hcs c ((List.dropWhile_sublist _).mem hc)) h
        have hle := List.length_dropWhile_le isAnySlash cs
        omega
    · next hnot =>
      have hs : v.scheme = s := by
        split at h
        · exact scheme_of_ofAuthority h
        · cases h
          rfl
        · cases h
          rfl
      exact absurd (hs ▸ hv ▸ hscheme.hasDomains) hnot

/-! ## The same place -/

/-- A slash ends what may be a scheme. -/
theorem scheme?_append {name : List Char} (hname : name ≠ []) (hrest : ∀ c ∈ rest.head?, c = '/') :
    scheme? (name ++ rest) = none ↔ scheme? name = none := by
  have hhead : (name ++ rest).head? = name.head? := List.head?_append_of_ne_nil _ hname
  have hslash : rest.dropWhile isSchemeChar = rest := by
    cases rest with
    | nil => rfl
    | cons c rest =>
      obtain rfl := hrest c rfl
      rfl
  rw [scheme?, scheme?, hhead]
  split
  · rw [List.dropWhile_append, hslash]
    cases hdrop : name.dropWhile isSchemeChar with
    | nil =>
      cases rest with
      | nil => simp
      | cons c rest =>
        obtain rfl := hrest c rfl
        simp
    | cons c more =>
      by_cases hc : c = ':'
      · subst hc
        simp
      · simp [hc]
  · exact Iff.rfl

/-- The paths that are found again: the one with nothing in it, and those whose first name is not empty
and does not start with a scheme. -/
def Rejoins (names : List String) : Prop :=
  names = [""] ∨ ∃ name rest, names = name :: rest ∧ name ≠ "" ∧ scheme? name.toList = none

theorem unslashed_afterSlashes (hnames : ∀ n ∈ names, IsName n) {c : Char}
    (hc : c ∈ (afterSlashes (UrlPath.names names).text.toList).head?) : isAnySlash c = false := by
  have hmem : c ∈ (UrlPath.names names).text.toList :=
    (List.dropWhile_sublist _).mem (List.mem_of_head? hc)
  rw [toList_text_names] at hmem
  obtain ⟨n, hn, hmem⟩ := List.mem_flatMap.1 hmem
  obtain rfl | hmem := List.mem_cons.1 hmem
  · exact absurd rfl (head?_afterSlashes hc)
  · exact (hnames n hn).unslashed c hmem

theorem text_names_cons (name : String) (others : List String) :
    (UrlPath.names (name :: others)).text.toList =
      '/' :: (name.toList ++ (UrlPath.names others).text.toList) := by
  rw [toList_text_names, toList_text_names, List.flatMap_cons, List.cons_append]

theorem head?_text_names (names : List String) :
    ∀ c ∈ (UrlPath.names names).text.toList.head?, c = '/' := by
  intro c hc
  cases names with
  | nil => cases hc
  | cons name others =>
    rw [text_names_cons] at hc
    exact (Option.some.inj hc).symm

/-- Where the first name is not empty, only the first slash is left out. -/
theorem afterSlashes_names {name : String} {others : List String} (hname : name ≠ "")
    (hunslashed : ∀ c ∈ name.toList, isAnySlash c = false) :
    afterSlashes (UrlPath.names (name :: others)).text.toList =
      name.toList ++ (UrlPath.names others).text.toList := by
  obtain ⟨c, rest, hcons⟩ := List.exists_cons_of_ne_nil (mt String.toList_eq_nil_iff.1 hname)
  have hc : isAnySlash c = false := hunslashed c (hcons ▸ List.mem_cons_self)
  have hne : ¬ (c == '/') = true := fun h => by
    rw [eq_of_beq h] at hc
    exact absurd hc (by decide)
  rw [text_names_cons, afterSlashes_slash, hcons, List.cons_append]
  exact List.dropWhile_cons_of_neg (p := (· == '/')) hne

/-- One slash is left out at least. -/
theorem length_afterSlashes_lt (hne : names ≠ []) :
    (afterSlashes (UrlPath.names names).text.toList).length < (UrlPath.names names).text.toList.length := by
  obtain ⟨name, others, rfl⟩ := List.exists_cons_of_ne_nil hne
  rw [text_names_cons, afterSlashes_slash]
  exact Nat.lt_succ_of_le (length_afterSlashes_le _)

/-- Where the first name is empty and another follows, two slashes are left out at least. -/
theorem length_afterSlashes_empty (second : String) (others : List String) :
    (afterSlashes (UrlPath.names ("" :: second :: others)).text.toList).length + 2 ≤
      (UrlPath.names ("" :: second :: others)).text.toList.length := by
  rw [text_names_cons, text_names_cons, String.toList_empty, List.nil_append, afterSlashes_slash,
    afterSlashes_slash]
  exact Nat.succ_le_succ (Nat.succ_le_succ (length_afterSlashes_le _))

/-- The path is found again if no scheme is found in it. -/
theorem extend_afterSlashes (hscheme : IsWebScheme scheme) (hne : names ≠ [])
    (hnames : ∀ n ∈ names, IsName n) :
    extend scheme [] (afterSlashes (UrlPath.names names).text.toList) = .names names ↔
      names = [""] ∨ names.head? ≠ some "" := by
  obtain ⟨name, others, rfl⟩ := List.exists_cons_of_ne_nil hne
  by_cases hname : name = ""
  · subst hname
    cases others with
    | nil =>
      refine ⟨fun _ => .inl rfl, fun _ => ?_⟩
      exact extend_nil hscheme
    | cons second others =>
      refine ⟨fun h => ?_, fun h => absurd h (by simp)⟩
      have hshort := length_extend_le hscheme fun c hc =>
        of_mem_text_names hnames ((List.dropWhile_sublist (· == '/')).mem hc)
      have hlong := length_afterSlashes_empty second others
      rw [← afterSlashes, h] at hshort
      omega
  · refine ⟨fun _ => .inr (by simpa using hname), fun _ => ?_⟩
    rw [afterSlashes_names hname (hnames name List.mem_cons_self).unslashed, extend, hscheme.isSlash,
      parts_cons_names rfl fun n hn => (hnames n hn).unslashed, addNames_of_isName hscheme hnames,
      List.nil_append]

/-- A scheme is found in the path if it stands in the first name. -/
theorem scheme?_afterSlashes_eq_none_of_rejoins (hnames : ∀ n ∈ names, IsName n) (h : Rejoins names) :
    scheme? (afterSlashes (UrlPath.names names).text.toList) = none := by
  obtain rfl | ⟨name, others, rfl, hname, hnone⟩ := h
  · rfl
  · rw [afterSlashes_names hname (hnames name List.mem_cons_self).unslashed]
    exact (scheme?_append (mt String.toList_eq_nil_iff.1 hname) (head?_text_names others)).2 hnone

theorem rejoins_iff (hne : names ≠ []) (hnames : ∀ n ∈ names, IsName n) :
    Rejoins names ↔ scheme? (afterSlashes (UrlPath.names names).text.toList) = none ∧
      (names = [""] ∨ names.head? ≠ some "") := by
  refine ⟨fun h => ⟨scheme?_afterSlashes_eq_none_of_rejoins hnames h, ?_⟩, fun ⟨hnone, h⟩ => ?_⟩
  · exact h.imp_right fun ⟨name, others, hcons, hname, _⟩ => by simpa [hcons] using hname
  · refine h.imp_right fun hhead => ?_
    obtain ⟨name, others, rfl⟩ := List.exists_cons_of_ne_nil hne
    have hname : name ≠ "" := by simpa using hhead
    rw [afterSlashes_names hname (hnames name List.mem_cons_self).unslashed] at hnone
    exact ⟨name, others, rfl, hname,
      (scheme?_append (mt String.toList_eq_nil_iff.1 hname) (head?_text_names others)).1 hnone⟩

/-- What is left of a query that was read is read again. -/
theorem queryText_toList (hscheme : IsWebScheme scheme) {query : Option String}
    (hquery : ∀ q ∈ query, ∀ c ∈ q.toList, EscapeSet.webQuery.escapes c = false)
    (hr : r.query = query.map String.toList) : r.queryText scheme = query := by
  rw [Reference.queryText, hr, if_pos hscheme.hasDomains]
  cases query with
  | none => rfl
  | some q =>
    rw [Option.map_some, Option.map_some, escape_eq_self (hquery q rfl), String.ofList_toList]

/-- **When the place is the same.** -/
theorem samePlace_join_iff (hweb : u.IsWeb) (ha : u.authority = some a) (hpath : u.path = .names names) :
    (∃ v, join (u.base a) (String.ofList (afterSlashes u.afterOrigin.toList)) = .ok v ∧ v.SamePlace u) ↔
      Rejoins names := by
  obtain ⟨names, hne, hpath', hnames⟩ := hweb.path
  obtain rfl := UrlPath.names.inj (hpath'.symm.trans hpath)
  have hreference := ofText_afterSlashes hnames hpath hweb.query hweb.fragment
  have hplain : ∀ c ∈ afterSlashes (UrlPath.names names).text.toList, EscapeSet.path.escapes c = false :=
    fun c hc => of_mem_text_names hnames ((List.dropWhile_sublist _).mem hc)
  rw [rejoins_iff hne hnames, ← extend_afterSlashes hweb.scheme hne hnames]
  cases hfound : scheme? (afterSlashes (UrlPath.names names).text.toList) with
  | none =>
    rw [join_unschemed_top (b := u.base a) hweb.scheme rfl rfl hreference
      (fun c hc => unslashed_afterSlashes hnames hc) hfound]
    have hquery := queryText_toList hweb.scheme hweb.query
      (r := ⟨afterSlashes (UrlPath.names names).text.toList, u.query.map String.toList,
        u.fragment.map String.toList⟩) rfl
    refine ⟨fun ⟨v, hv, hsame⟩ => ⟨rfl, ?_⟩, fun ⟨_, hextend⟩ => ⟨_, rfl, ?_⟩⟩
    · cases hv
      exact hsame.path.trans hpath
    · exact ⟨rfl, by rw [ha]; rfl, by rw [ha]; rfl, hextend.trans hpath.symm, hquery⟩
  | some found =>
    obtain ⟨s, tail⟩ := found
    refine ⟨fun ⟨v, hv, hsame⟩ => absurd hsame.path fun heq => ?_, fun ⟨h, _⟩ => absurd h (by simp)⟩
    rw [join, resolve.eq_def] at hv
    dsimp only at hv
    rw [hreference, hfound] at hv
    obtain ⟨front, hbody⟩ := append_of_scheme? hfound
    have hshort := length_of_ofScheme (b := u.base a) hweb.scheme rfl
      (fun c hc => hplain c (hbody ▸ List.mem_append_right _ (List.mem_cons_of_mem _ hc))) hv hsame.scheme
    have htail : tail.length + 1 ≤ (afterSlashes (UrlPath.names names).text.toList).length := by
      rw [hbody, List.length_append, List.length_cons]
      exact Nat.le_add_left _ _
    have hlong := length_afterSlashes_lt hne
    rw [heq, hpath] at hshort
    omega

end ContentSync.Url
