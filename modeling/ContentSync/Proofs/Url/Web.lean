import ContentSync.Proofs.Url.Host
import ContentSync.Settings.Invalid
import Mathlib.Data.List.DropRight
import Mathlib.Data.List.TakeWhile

/-!
# Addresses of the web

An address that starts with `http://` or `https://` has a host, a path with at least one name, and no
character that would have to be escaped. Its origin is an address with the same scheme and the same
machine.

* `Reference.ofText_web` — what is divided and what is cleaned of such a text;
* `Url.parse_of_body` — reading it comes down to reading an authority;
* `Url.IsWeb`, `Url.isWeb_of_parse` — what an address is like that has been read;
* `Url.parse_origin` — an address that is found in the text of an origin.
-/

set_option autoImplicit false

namespace ContentSync

theorem ok_of_toOption {ε α : Type} {x : Except ε α} {a : α} (h : x.toOption = some a) : x = .ok a := by
  cases x with
  | error => cases h
  | ok => exact congrArg Except.ok (Option.some.inj h)

/-! ## The ends of a text -/

namespace Text

variable {p : Char → Bool} {a : List Char}

/-- What does not start with such a character stays whole. -/
theorem dropWhile_eq_self (ha : ∀ c ∈ a.head?, p c = false) : a.dropWhile p = a := by
  cases a with
  | nil => rfl
  | cons c rest => exact List.dropWhile_cons_of_neg (by simp [ha c rfl])

theorem dropWhile_append_of_head (ha : ∀ c ∈ a.head?, p c = false) (b : List Char) :
    (b ++ a).dropWhile p = b.dropWhile p ++ a := by
  rw [List.dropWhile_append, dropWhile_eq_self ha]
  split
  · next hempty => rw [List.isEmpty_iff.1 hempty, List.nil_append]
  · rfl

theorem dropEndWhile_eq (p : Char → Bool) (cs : List Char) : dropEndWhile p cs = cs.rdropWhile p := rfl

/-- What stays at the end stays there when more is added before it. -/
theorem dropEndWhile_append (ha : ∀ c ∈ a.getLast?, p c = false) (b : List Char) :
    dropEndWhile p (a ++ b) = a ++ dropEndWhile p b := by
  simp only [dropEndWhile_eq]
  induction b using List.reverseRecOn with
  | nil =>
    rw [List.append_nil, List.rdropWhile_nil, List.append_nil, List.rdropWhile_eq_self_iff]
    exact fun hne => by simp [ha _ (List.getLast?_eq_getLast_of_ne_nil hne)]
  | append_singleton b c ih =>
    rw [← List.append_assoc]
    by_cases hc : p c = true
    · rw [List.rdropWhile_concat_pos _ _ _ hc, List.rdropWhile_concat_pos _ _ _ hc, ih]
    · rw [List.rdropWhile_concat_neg _ _ _ hc, List.rdropWhile_concat_neg _ _ _ hc, List.append_assoc]

theorem dropEndWhile_eq_self (ha : ∀ c ∈ a.getLast?, p c = false) : dropEndWhile p a = a := by
  simpa [dropEndWhile_eq] using dropEndWhile_append ha []

theorem not_blank_of_visible {c : Char} (h : 0x20 < c.toNat ∧ c.toNat < 0x80) : isBlank c = false :=
  forall_ascii (p := fun c => 0x20 < c.toNat → isBlank c = false) (by decide) h.2 h.1

/-- No blanks are taken from what starts and ends with other characters. -/
theorem trimChars_append (hne : a ≠ []) (hhead : ∀ c ∈ a.head?, isBlank c = false)
    (hlast : ∀ c ∈ a.getLast?, isBlank c = false) (b : List Char) :
    trimChars (a ++ b) = a ++ dropEndWhile isBlank b := by
  have hstart : ∀ c ∈ (a ++ b).head?, isBlank c = false := by
    rwa [List.head?_append_of_ne_nil _ hne]
  rw [trimChars, dropWhile_eq_self hstart, dropEndWhile_append hlast]

end Text

namespace Reference

variable {mark : Char} {a b cs : List Char} {text : String}

/-! ## Cleaning and dividing -/

theorem le_space_iff {c : Char} : (c ≤ ' ') ↔ c.toNat ≤ 0x20 := by
  rw [Char.le_def, UInt32.le_iff_toNat_le]
  rfl

/-- Whether a character counts in the middle of a text. -/
def counts (c : Char) : Bool := c != '\t' && c != '\n' && c != '\r'

/-- What is left of the end of a text. -/
def cleanEnd (cs : List Char) : List Char := (Text.dropEndWhile (· ≤ ' ') cs).filter counts

/-- A front that starts and ends with characters that count stays. -/
theorem clean_append (hhead : ∀ c ∈ a.head?, 0x20 < c.toNat) (hne : a ≠ [])
    (hlast : ∀ c ∈ a.getLast?, 0x20 < c.toNat) (b : List Char) :
    clean (a ++ b) = a.filter counts ++ cleanEnd b := by
  obtain ⟨c, rest, rfl⟩ := List.exists_cons_of_ne_nil hne
  have hc : decide (c ≤ ' ') = false := by
    have := hhead c rfl
    rw [decide_eq_false_iff_not, le_space_iff]
    omega
  have hend : ∀ d ∈ (c :: rest).getLast?, decide (d ≤ ' ') = false := fun d hd => by
    have := hlast d hd
    rw [decide_eq_false_iff_not, le_space_iff]
    omega
  rw [clean, List.cons_append, List.dropWhile_cons_of_neg (by simp [hc]), ← List.cons_append,
    Text.dropEndWhile_append hend, List.filter_append]
  rfl

theorem counts_iff {c : Char} : counts c = true ↔ ∀ d ∈ ['\t', '\n', '\r'], c ≠ d := by
  simp [counts, and_assoc]

theorem counts_of_lt {c : Char} (h : 0x20 < c.toNat) : counts c = true := by
  rw [counts_iff]
  rintro d hd rfl
  have hall : ∀ d ∈ ['\t', '\n', '\r'], d.toNat ≤ 0x20 := List.all_iff_forall_prop.1 (by decide)
  exact Nat.not_lt.2 (hall c hd) h

theorem counts_of_not_blank {c : Char} (h : Text.isBlank c = false) : counts c = true := by
  rw [counts_iff]
  rintro d hd rfl
  have hall : ∀ d ∈ ['\t', '\n', '\r'], Text.isBlank d = true := List.all_iff_forall_prop.1 (by decide)
  exact absurd (hall c hd) (by simp [h])

theorem cleanEnd_eq_self (h : ∀ c ∈ cs, 0x20 < c.toNat) : cleanEnd cs = cs := by
  have hend : ∀ c ∈ cs.getLast?, decide (c ≤ ' ') = false := fun c hc => by
    have := h c (List.mem_of_getLast? hc)
    rw [decide_eq_false_iff_not, le_space_iff]
    omega
  rw [cleanEnd, Text.dropEndWhile_eq_self hend]
  exact List.filter_eq_self.2 fun c hc => counts_of_lt (h c hc)

theorem clean_eq_self (h : ∀ c ∈ cs, 0x20 < c.toNat) : clean cs = cs := by
  cases cs with
  | nil => rfl
  | cons c rest =>
    have hc : 0x20 < c.toNat := h c List.mem_cons_self
    have hclean := clean_append (by simpa using hc) (List.cons_ne_nil c []) (by simpa using hc) rest
    rw [cleanEnd_eq_self fun d hd => h d (List.mem_cons_of_mem _ hd),
      List.filter_cons_of_pos (counts_of_lt hc)] at hclean
    exact hclean

theorem ne_of_mem (h : mark ∉ a) : ∀ c ∈ a, (c != mark) = true := by
  rintro c hc
  rw [bne_iff_ne]
  rintro rfl
  exact h hc

theorem divide_of_not_mem (h : mark ∉ a) : divide mark a = (a, none) := by
  rw [divide, List.takeWhile_eq_self_iff.2 (ne_of_mem h), List.dropWhile_eq_nil_iff.2 (ne_of_mem h)]

theorem divide_append (h : mark ∉ a) (b : List Char) : divide mark (a ++ mark :: b) = (a, some b) := by
  rw [divide, List.takeWhile_append_of_pos (ne_of_mem h), List.dropWhile_append_of_pos (ne_of_mem h),
    List.takeWhile_cons_of_neg (by simp), List.dropWhile_cons_of_neg (by simp), List.append_nil]

/-- What comes before the mark stays there. -/
theorem divide_front_append (h : mark ∉ a) (b : List Char) :
    divide mark (a ++ b) = (a ++ (divide mark b).1, (divide mark b).2) := by
  rw [divide, divide, List.takeWhile_append_of_pos (ne_of_mem h),
    List.dropWhile_append_of_pos (ne_of_mem h)]

theorem ofChars_front_append (hfragment : '#' ∉ a) (hquery : '?' ∉ a) (b : List Char) :
    ofChars (a ++ b) = { ofChars b with body := a ++ (ofChars b).body } := by
  simp only [ofChars, divide_front_append hfragment, divide_front_append hquery]

theorem ofChars_unmarked (hfragment : '#' ∉ cs) (hquery : '?' ∉ cs) : ofChars cs = ⟨cs, none, none⟩ := by
  simp only [ofChars, divide_of_not_mem hfragment, divide_of_not_mem hquery]

end Reference

namespace Url

variable {scheme : String} {cs tail : List Char} {text : String}

/-! ## Schemes -/

theorem scheme?_web (hscheme : IsWebScheme scheme) (rest : List Char) :
    scheme? (scheme.toList ++ ':' :: rest) = some (scheme, rest) := by
  obtain rfl | rfl := hscheme <;> rfl

/-- An address of the web is read as an authority and what follows it. -/
theorem parse_of_body (hscheme : IsWebScheme scheme)
    (hbody : (Reference.ofText text).body = scheme.toList ++ ':' :: '/' :: '/' :: tail) :
    parse text = ofAuthority scheme (tail.dropWhile isAnySlash) (Reference.ofText text) := by
  have hfound : scheme? (Reference.ofText text).body = some (scheme, '/' :: '/' :: tail) := by
    rw [hbody, scheme?_web hscheme]
  rw [parse, resolve.eq_def]
  dsimp only
  rw [hfound]
  dsimp only
  rw [ofScheme, if_neg hscheme.ne_file, if_pos hscheme.hasDomains]
  rfl

theorem toList_of_isWebAddress (h : isWebAddress text = true) :
    ∃ scheme tail, IsWebScheme scheme ∧ text.toList = scheme.toList ++ ':' :: '/' :: '/' :: tail := by
  rw [isWebAddress, Bool.or_eq_true, List.isPrefixOf_iff_prefix, List.isPrefixOf_iff_prefix] at h
  obtain ⟨tail, h⟩ | ⟨tail, h⟩ := h
  · exact ⟨"http", tail, .inl rfl, h.symm⟩
  · exact ⟨"https", tail, .inr rfl, h.symm⟩

theorem isWebAddress_of_toList (hscheme : IsWebScheme scheme)
    (htext : text.toList = scheme.toList ++ ':' :: '/' :: '/' :: tail) : isWebAddress text = true := by
  obtain rfl | rfl := hscheme
  · simp [isWebAddress, htext]
  · simp [isWebAddress, htext]

/-- An address starts with characters that can be seen. -/
theorem IsWebScheme.visible (hscheme : IsWebScheme scheme) :
    ∀ c ∈ scheme.toList ++ [':', '/', '/'], 0x20 < c.toNat ∧ c.toNat < 0x80 := by
  obtain rfl | rfl := hscheme
  · exact List.all_iff_forall_prop.1 (by decide)
  · exact List.all_iff_forall_prop.1 (by decide)

/-- What is divided of an address of the web is what follows the scheme. -/
theorem ofText_web (hscheme : IsWebScheme scheme)
    (htext : text.toList = scheme.toList ++ ':' :: '/' :: '/' :: tail) :
    Reference.ofText text = { Reference.ofChars (Reference.cleanEnd tail) with
      body := scheme.toList ++ ':' :: '/' :: '/' :: (Reference.ofChars (Reference.cleanEnd tail)).body } := by
  have hfront : text.toList = (scheme.toList ++ [':', '/', '/']) ++ tail := by
    rw [htext, List.append_assoc]
    rfl
  have hclean : Reference.clean text.toList =
      (scheme.toList ++ [':', '/', '/']) ++ Reference.cleanEnd tail := by
    have hkept : (scheme.toList ++ [':', '/', '/']).filter Reference.counts = scheme.toList ++ [':', '/', '/'] :=
      List.filter_eq_self.2 fun c hc => Reference.counts_of_lt (hscheme.visible c hc).1
    rw [hfront, Reference.clean_append (fun c hc => (hscheme.visible c (List.mem_of_head? hc)).1) (by simp)
      (fun c hc => (hscheme.visible c (List.mem_of_getLast? hc)).1), hkept]
  have hmarks : '#' ∉ scheme.toList ++ [':', '/', '/'] ∧ '?' ∉ scheme.toList ++ [':', '/', '/'] := by
    obtain rfl | rfl := hscheme
    · decide
    · decide
  rw [Reference.ofText, hclean, Reference.ofChars_front_append hmarks.1 hmarks.2, List.append_assoc]
  rfl

/-! ## Authorities -/

variable {a : Authority} {number rest : List Char} {n : Option Nat} {r : Reference} {u v : Url}

/-- An authority of the web names a machine by a host, which is not empty, and perhaps a number. -/
theorem parseAuthority_web (hscheme : IsWebScheme scheme) (cs : List Char) :
    parseAuthority scheme cs =
      let asker := Reference.divide ':' ((userinfo cs).1.getD [])
      let machine := splitHost false (userinfo cs).2
      if machine.1 = [] then .error .emptyHost
      else (Host.parse machine.1).bind fun host => (portNumber? scheme machine.2).map fun number =>
        (⟨String.ofList (escape .userinfo asker.1), String.ofList (escape .userinfo (asker.2.getD [])),
          host, number.1⟩, number.2) := by
  dsimp only
  rw [parseAuthority.eq_def]
  dsimp only
  by_cases hempty : (splitHost false (userinfo cs).2).1 = []
  · rw [if_pos hempty, if_pos ⟨by simp [hempty], .inl hscheme.hasDomains⟩]
    rfl
  · rw [if_neg hempty, if_neg fun h => hempty (by simpa using h.1), if_pos hscheme.hasDomains]
    cases Host.parse (splitHost false (userinfo cs).2).1 with
    | error => rfl
    | ok => cases portNumber? scheme (splitHost false (userinfo cs).2).2 <;> rfl

/-- What an authority is read from. -/
theorem parts_of_parseAuthority (hscheme : IsWebScheme scheme)
    (h : parseAuthority scheme cs = .ok (a, rest)) :
    Host.parse (splitHost false (userinfo cs).2).1 = .ok a.host ∧
      portNumber? scheme (splitHost false (userinfo cs).2).2 = .ok (a.portNumber, rest) := by
  rw [parseAuthority_web hscheme] at h
  dsimp only at h
  split at h
  · cases h
  · cases hhost : Host.parse (splitHost false (userinfo cs).2).1 with
    | error e => simp [hhost, Except.bind] at h
    | ok host =>
      cases hnumber : portNumber? scheme (splitHost false (userinfo cs).2).2 with
      | error e => simp [hhost, hnumber, Except.bind, Except.map] at h
      | ok number =>
        simp only [hhost, hnumber, Except.bind, Except.map] at h
        cases h
        exact ⟨rfl, rfl⟩

/-- A number that is read is small, and it is not the one that the scheme implies. -/
theorem number_of_portNumber? (h : portNumber? scheme number = .ok (n, rest)) :
    ∀ k ∈ n, k ≤ 65535 ∧ impliedPortNumber scheme ≠ some k := by
  unfold portNumber? at h
  split at h
  · cases h
    simp
  · dsimp only at h
    split at h
    · cases h
    · next hbad =>
      split at h
      · cases h
        simp
      · next himplied =>
        cases h
        rintro k ⟨⟩
        exact ⟨by omega, fun h => himplied (.inr h)⟩

theorem splitHost_join (bracketed : Bool) (cs : List Char) :
    (splitHost bracketed cs).1 ++ (splitHost bracketed cs).2 = cs := by
  induction cs generalizing bracketed with
  | nil => rfl
  | cons c cs ih =>
    by_cases hc : c = ':'
    · subst hc
      cases bracketed with
      | true => simp [splitHost, ih]
      | false => simp [splitHost]
    · rw [splitHost]
      · simp [ih]
      · exact hc

theorem userinfo_suffix (cs : List Char) : (userinfo cs).2 <:+ cs := by
  unfold userinfo
  split
  · exact List.reverse_prefix.1 (by simpa using List.takeWhile_prefix _)
  · exact List.suffix_refl _

/-- What comes before the last `@` is a beginning of the text. -/
theorem userinfo_prefix {cs who : List Char} (h : (userinfo cs).1 = some who) : who <+: cs := by
  unfold userinfo at h
  split at h
  · cases h
    exact List.take_prefix _ _
  · cases h

theorem userinfo_append {a b : List Char} (h : '@' ∉ b) : userinfo (a ++ '@' :: b) = (some a, b) := by
  have hlast : ((a ++ '@' :: b).reverse.takeWhile (· != '@')).reverse = b := by
    rw [List.reverse_append, List.reverse_cons, List.append_assoc, List.singleton_append,
      List.takeWhile_append_of_pos (Reference.ne_of_mem (by simpa using h)),
      List.takeWhile_cons_of_neg (by simp), List.append_nil, List.reverse_reverse]
  have hfront : (a ++ '@' :: b).length - b.length - 1 = a.length := by
    rw [List.length_append, List.length_cons]
    omega
  rw [userinfo, if_pos (by simp)]
  simp only [hlast, hfront, List.take_left]

/-- Without slashes there is nothing but digits after the colon. -/
theorem digits_of_portNumber? (hnumber : ∀ c ∈ number, isAnySlash c = false)
    (h : portNumber? scheme number = .ok (n, rest)) :
    rest = [] ∧ ∀ c ∈ number.tail, c.isDigit = true := by
  unfold portNumber? at h
  split at h
  · cases h
    exact ⟨rfl, List.forall_mem_nil _⟩
  · next c digits =>
    have hrest : ∀ d ∈ digits.dropWhile Char.isDigit, isAnySlash d = false := fun d hd =>
      hnumber d (List.mem_cons_of_mem _ ((List.dropWhile_sublist _).mem hd))
    dsimp only at h
    split at h
    · cases h
    · next hbad =>
      have hend : digits.dropWhile Char.isDigit = [] := by
        by_contra hne
        have hback : (digits.dropWhile Char.isDigit).head? = some '\\' := by
          by_contra hhead
          exact hbad (.inr (by simp [hne, hhead]))
        exact absurd (hrest '\\' (List.mem_of_head? hback)) (by decide)
      refine ⟨?_, List.dropWhile_eq_nil_iff.1 hend⟩
      split at h
      · cases h
        exact hend
      · cases h
        exact hend

theorem mem_of_mem_number {c : Char} (h : c ∈ (splitHost false (userinfo cs).2).2) : c ∈ cs := by
  refine (userinfo_suffix cs).subset ?_
  rw [← splitHost_join false (userinfo cs).2]
  exact List.mem_append_right _ h

/-- Nothing but a slash ends an authority. -/
theorem rest_of_parseAuthority (hscheme : IsWebScheme scheme) (hcs : ∀ c ∈ cs, isAnySlash c = false)
    (h : parseAuthority scheme cs = .ok (a, rest)) : rest = [] :=
  (digits_of_portNumber? (fun c hc => hcs c (mem_of_mem_number hc)) (parts_of_parseAuthority hscheme h).2).1

/-! ## Paths -/

theorem addName_last_ne_nil (names : List String) (name : List Char) :
    addName scheme names name true ≠ [] := by
  unfold addName
  split
  · simp
  · split
    · simp
    · split
      · simp
      · simp

theorem addNames_ne_nil {parts : List (List Char)} (hparts : parts ≠ []) (names : List String) :
    addNames scheme names parts ≠ [] := by
  induction parts generalizing names with
  | nil => exact absurd rfl hparts
  | cons part rest ih =>
    cases rest with
    | nil => exact addName_last_ne_nil names part
    | cons next rest => exact ih (List.cons_ne_nil _ _) _

/-- There always is a name. -/
def IsPath (path : UrlPath) : Prop := ∃ names, names ≠ [] ∧ path = .names names ∧ ∀ n ∈ names, IsName n

theorem isPath_extend (hscheme : IsWebScheme scheme) {names : List String}
    (hnames : ∀ n ∈ names, IsName n) (cs : List Char) : IsPath (extend scheme names cs) := by
  refine ⟨_, addNames_ne_nil (Text.parts_ne_nil _ _) names, rfl, ?_⟩
  refine isName_of_mem_addNames hscheme hnames fun part hpart c hc => ?_
  rw [← hscheme.isSlash]
  exact (Text.mem_parts hpart hc).2

theorem isPath_absolutePath (hscheme : IsWebScheme scheme) (cs : List Char) :
    IsPath (absolutePath scheme cs) := by
  cases cs with
  | nil =>
    refine ⟨[""], by simp, ?_, by simpa using isName_empty⟩
    rw [absolutePath, if_pos hscheme.hasDomains]
  | cons c cs => exact isPath_extend hscheme (List.forall_mem_nil _) _

/-! ## Addresses -/

/-- An address of the web as it is read. -/
structure IsWeb (u : Url) : Prop where
  scheme : IsWebScheme u.scheme
  authority : ∃ a, u.authority = some a ∧ a.host.IsFound ∧
    ∀ n ∈ a.portNumber, n ≤ 65535 ∧ impliedPortNumber u.scheme ≠ some n
  path : IsPath u.path
  query : ∀ q ∈ u.query, ∀ c ∈ q.toList, EscapeSet.webQuery.escapes c = false
  fragment : ∀ f ∈ u.fragment, ∀ c ∈ f.toList, EscapeSet.fragment.escapes c = false

theorem not_escapes_queryText (hscheme : IsWebScheme scheme) (r : Reference) :
    ∀ q ∈ r.queryText scheme, ∀ c ∈ q.toList, EscapeSet.webQuery.escapes c = false := by
  intro q hq c hc
  obtain ⟨cs, -, rfl⟩ := Option.map_eq_some_iff.1 hq
  rw [if_pos hscheme.hasDomains, String.toList_ofList] at hc
  exact not_escapes_of_mem_escape hc

theorem not_escapes_fragmentText (r : Reference) :
    ∀ f ∈ r.fragmentText, ∀ c ∈ f.toList, EscapeSet.fragment.escapes c = false := by
  intro f hf c hc
  obtain ⟨cs, -, rfl⟩ := Option.map_eq_some_iff.1 hf
  rw [String.toList_ofList] at hc
  exact not_escapes_of_mem_escape hc

/-- The authority goes as far as the first slash. -/
theorem ofAuthority_append (hscheme : IsWebScheme scheme) {front back : List Char}
    (hfront : ∀ c ∈ front, isAnySlash c = false) (hback : ∀ c ∈ back.head?, isAnySlash c = true)
    (r : Reference) :
    ofAuthority scheme (front ++ back) r = (parseAuthority scheme front).map fun p =>
      ⟨scheme, some p.1, absolutePath scheme (p.2 ++ back), r.queryText scheme, r.fragmentText⟩ := by
  have hnot : ∀ c ∈ front, (!isAnySlash c) = true := fun c hc => by rw [hfront c hc]; rfl
  have htake : back.takeWhile (fun c => !isAnySlash c) = [] := by
    cases back with
    | nil => rfl
    | cons c rest => rw [List.takeWhile_cons_of_neg (by simp [hback c rfl])]
  have hdrop : back.dropWhile (fun c => !isAnySlash c) = back := by
    cases back with
    | nil => rfl
    | cons c rest => rw [List.dropWhile_cons_of_neg (by simp [hback c rfl])]
  rw [ofAuthority.eq_def, hscheme.isSlash, List.takeWhile_append_of_pos hnot,
    List.dropWhile_append_of_pos hnot, htake, hdrop, List.append_nil]
  dsimp only
  cases parseAuthority scheme front <;> rfl

/-- What an address is read from that has an authority. -/
theorem eq_of_ofAuthority (hscheme : IsWebScheme scheme) (h : ofAuthority scheme cs r = .ok u) :
    ∃ a, parseAuthority scheme (cs.takeWhile fun c => !isAnySlash c) = .ok (a, []) ∧
      u = ⟨scheme, some a, absolutePath scheme (cs.dropWhile fun c => !isAnySlash c),
        r.queryText scheme, r.fragmentText⟩ := by
  have hfront : ∀ c ∈ cs.takeWhile fun c => !isAnySlash c, isAnySlash c = false := fun c hc => by
    simpa using List.mem_takeWhile_imp hc
  have hback : ∀ c ∈ (cs.dropWhile fun c => !isAnySlash c).head?, isAnySlash c = true := fun c hc => by
    have hnot := List.head?_dropWhile_not (fun c => !isAnySlash c) cs
    rw [Option.mem_def] at hc
    rw [hc] at hnot
    simpa using hnot
  rw [← List.takeWhile_append_dropWhile (p := fun c => !isAnySlash c) (l := cs),
    ofAuthority_append hscheme hfront hback] at h
  cases hparsed : parseAuthority scheme (cs.takeWhile fun c => !isAnySlash c) with
  | error => simp [hparsed, Except.map] at h
  | ok parsed =>
    obtain ⟨a, rest⟩ := parsed
    obtain rfl := rest_of_parseAuthority hscheme hfront hparsed
    rw [hparsed] at h
    cases h
    exact ⟨a, rfl, rfl⟩

theorem isWeb_of_ofAuthority (hscheme : IsWebScheme scheme) (h : ofAuthority scheme cs r = .ok u) :
    u.IsWeb := by
  obtain ⟨a, hparsed, rfl⟩ := eq_of_ofAuthority hscheme h
  obtain ⟨hhost, hnumber⟩ := parts_of_parseAuthority hscheme hparsed
  exact ⟨hscheme, ⟨a, rfl, Host.isFound_of_parse hhost, number_of_portNumber? hnumber⟩,
    isPath_absolutePath hscheme _, not_escapes_queryText hscheme r, not_escapes_fragmentText r⟩

/-- **An address that starts with a scheme of the web is read as one.** -/
theorem isWeb_of_parse (haddress : isWebAddress text = true) (h : parse text = .ok u) : u.IsWeb := by
  obtain ⟨scheme, tail, hscheme, htext⟩ := toList_of_isWebAddress haddress
  rw [parse_of_body hscheme (by rw [ofText_web hscheme htext])] at h
  exact isWeb_of_ofAuthority hscheme h

/-! ## Origins -/

/-- How the number of a machine's door is written. -/
def numberText : Option Nat → List Char
  | none => []
  | some n => ':' :: Nat.toDigits 10 n

theorem toList_machine (a : Authority) :
    a.machine.toList = a.host.text.toList ++ numberText a.portNumber := by
  rw [Authority.machine, String.toList_append]
  cases a.portNumber with
  | none => rfl
  | some n =>
    have hdigits : (toString n).toList = Nat.toDigits 10 n := Nat.toList_repr
    dsimp only
    rw [String.toList_append, hdigits]
    rfl

theorem isPlainChar_of_mem_machine (hfound : a.host.IsFound) {c : Char} (h : c ∈ a.machine.toList) :
    Host.IsPlainChar c := by
  rw [toList_machine] at h
  obtain h | h := List.mem_append.1 h
  · exact Host.isPlainChar_of_mem_text hfound h
  · cases hport : a.portNumber with
    | none => simp [hport, numberText] at h
    | some n =>
      rw [hport, numberText] at h
      obtain rfl | h := List.mem_cons.1 h
      · decide
      · have hall : ∀ d < 10, Host.IsPlainChar d.digitChar := by decide
        obtain ⟨d, hd, rfl⟩ := Host.digit_of_mem_toDigits (by omega) h
        exact hall d hd

theorem userinfo_of_not_mem (h : '@' ∉ cs) : userinfo cs = (none, cs) := by
  rw [userinfo, if_neg (by simpa using h)]

theorem splitHost_numberText (n : Option Nat) : splitHost false (numberText n) = ([], numberText n) := by
  cases n <;> rfl

/-- Without colons and brackets a text belongs to the host. -/
theorem splitHost_append (h : ∀ c ∈ cs, c ≠ ':' ∧ c ≠ '[') (rest : List Char) :
    splitHost false (cs ++ rest) = (cs ++ (splitHost false rest).1, (splitHost false rest).2) := by
  induction cs with
  | nil => rfl
  | cons c cs ih =>
    obtain ⟨hcolon, hbracket⟩ := h c List.mem_cons_self
    rw [List.cons_append, splitHost]
    · simp [hbracket, ih fun d hd => h d (List.mem_cons_of_mem _ hd)]
    · exact hcolon

/-- Between brackets everything belongs to the host. -/
theorem splitHost_bracketed (h : ∀ c ∈ cs, c ≠ ']') (rest : List Char) :
    splitHost true (cs ++ ']' :: rest) =
      (cs ++ ']' :: (splitHost false rest).1, (splitHost false rest).2) := by
  induction cs with
  | nil => rfl
  | cons c cs ih =>
    have hc : c ≠ ']' := h c List.mem_cons_self
    have hrest := ih fun d hd => h d (List.mem_cons_of_mem _ hd)
    by_cases hcolon : c = ':'
    · subst hcolon
      simp [splitHost, hrest]
    · rw [List.cons_append, splitHost]
      · simp [hc, hrest]
      · exact hcolon

theorem splitHost_machine (hfound : a.host.IsFound) :
    splitHost false a.machine.toList = (a.host.text.toList, numberText a.portNumber) := by
  rw [toList_machine]
  cases hhost : a.host with
  | domain name =>
    rw [hhost] at hfound
    cases hfound with
    | domain lower allowed =>
      have hplain : ∀ c ∈ (Host.domain name).text.toList, c ≠ ':' ∧ c ≠ '[' := fun c hc =>
        (Host.isPlainChar_of_allowed (lower c hc).1 (allowed c hc)).2
      rw [splitHost_append hplain, splitHost_numberText, List.append_nil]
  | ipv4 address =>
    have hplain : ∀ c ∈ (Host.ipv4 address).text.toList, c ≠ ':' ∧ c ≠ '[' := fun c hc =>
      (Host.isPlainChar_of_mem_ipv4Text hc).2
    rw [splitHost_append hplain, splitHost_numberText, List.append_nil]
  | ipv6 groups =>
    have hplain : ∀ c ∈ (Host.ipv6Text groups).toList, c ≠ ']' := fun c hc =>
      (Host.isPlainChar_of_mem_ipv6Text hc).2
    have hopen : splitHost false ('[' :: ((Host.ipv6Text groups).toList ++ ']' :: numberText a.portNumber)) =
        ('[' :: ((Host.ipv6Text groups).toList ++ [']']), numberText a.portNumber) := by
      rw [splitHost]
      · simp [splitHost_bracketed hplain, splitHost_numberText]
      · decide
    rw [Host.toList_text_ipv6, List.cons_append, List.append_assoc]
    exact hopen
  | plain =>
    rw [hhost] at hfound
    cases hfound

theorem portNumber?_numberText (h : ∀ k ∈ n, k ≤ 65535 ∧ impliedPortNumber scheme ≠ some k) :
    portNumber? scheme (numberText n) = .ok (n, []) := by
  cases n with
  | none => rfl
  | some k =>
    obtain ⟨hsmall, himplied⟩ := h k rfl
    have hdigit : ∀ c ∈ Nat.toDigits 10 k, c.isDigit = true := fun c hc =>
      Nat.isDigit_of_mem_toDigits (by omega) (by omega) hc
    have hne : (Nat.toDigits 10 k).isEmpty = false := by simp [Nat.toDigits_ne_nil]
    rw [numberText, portNumber?]
    rw [List.takeWhile_eq_self_iff.2 hdigit, List.dropWhile_eq_nil_iff.2 hdigit,
      Host.digits?_toDigits (by omega) (by omega), Option.getD_some, if_neg (by simp; omega),
      if_neg (by simp [hne, himplied])]

/-- Whoever reads the text of a machine finds this machine. -/
theorem parseAuthority_machine (hscheme : IsWebScheme scheme) (hfound : a.host.IsFound)
    (hnumber : ∀ k ∈ a.portNumber, k ≤ 65535 ∧ impliedPortNumber scheme ≠ some k) {b : Authority}
    (h : parseAuthority scheme a.machine.toList = .ok (b, rest)) :
    b = ⟨"", "", a.host, a.portNumber⟩ ∧ rest = [] := by
  have hat : '@' ∉ a.machine.toList := fun h =>
    absurd (isPlainChar_of_mem_machine hfound h) (by decide)
  rw [parseAuthority_web hscheme, userinfo_of_not_mem hat] at h
  dsimp only at h
  rw [splitHost_machine hfound] at h
  dsimp only at h
  rw [if_neg (Host.text_ne_nil hfound), portNumber?_numberText hnumber] at h
  cases hhost : Host.parse a.host.text.toList with
  | error => simp [hhost, Except.bind] at h
  | ok host =>
    rw [hhost] at h
    obtain rfl := Host.parse_text hfound hhost
    cases h
    exact ⟨rfl, rfl⟩

theorem IsWeb.origin_eq (hweb : u.IsWeb) (ha : u.authority = some a) :
    u.origin = u.scheme ++ "://" ++ a.machine := by
  have hscheme : (hasDomains u.scheme && u.scheme != "file") = true := by
    simp [hweb.scheme.hasDomains, hweb.scheme.ne_file]
  rw [origin, ha]
  dsimp only
  rw [if_pos hscheme]

/-- What the address of an origin stands for. -/
def base (u : Url) (a : Authority) : Url :=
  ⟨u.scheme, some ⟨"", "", a.host, a.portNumber⟩, .names [""], none, none⟩

/-- **An address that is found in the text of an origin** has the same scheme and the same machine, and
nothing else. -/
theorem parse_origin (hweb : u.IsWeb) (ha : u.authority = some a)
    (h : parse (u.origin ++ "/") = .ok v) : v = u.base a := by
  obtain ⟨b, hb, hfound, hnumber⟩ := hweb.authority
  obtain rfl : b = a := Option.some.inj (hb.symm.trans ha)
  have hplain : ∀ c ∈ b.machine.toList, Host.IsPlainChar c := fun c hc =>
    isPlainChar_of_mem_machine hfound hc
  have hslash : ∀ c ∈ b.machine.toList, isAnySlash c = false := fun c hc => by
    have hnot := (hplain c hc).2.2
    simp only [List.mem_cons, not_or] at hnot
    simp [isAnySlash, hnot]
  have htext : (u.origin ++ "/").toList =
      u.scheme.toList ++ ':' :: '/' :: '/' :: (b.machine.toList ++ ['/']) := by
    simp [hweb.origin_eq ha]
  have htail : ∀ c ∈ b.machine.toList ++ ['/'], 0x20 < c.toNat ∧ c ≠ '#' ∧ c ≠ '?' := by
    intro c hc
    obtain hc | hc := List.mem_append.1 hc
    · have hnot := (hplain c hc).2.2
      simp only [List.mem_cons, not_or] at hnot
      exact ⟨(hplain c hc).1, hnot.2.2.2.1, hnot.2.2.1⟩
    · obtain rfl := List.mem_singleton.1 hc
      decide
  have hreference := ofText_web hweb.scheme htext
  rw [Reference.cleanEnd_eq_self fun c hc => (htail c hc).1,
    Reference.ofChars_unmarked (fun h => (htail _ h).2.1 rfl) fun h => (htail _ h).2.2 rfl] at hreference
  have hstart : (b.machine.toList ++ ['/']).dropWhile isAnySlash = b.machine.toList ++ ['/'] := by
    obtain ⟨c, rest, hcons⟩ := List.exists_cons_of_ne_nil
      (by rw [toList_machine]; simp [Host.text_ne_nil hfound] : b.machine.toList ≠ [])
    have hc : isAnySlash c = false := hslash c (hcons ▸ List.mem_cons_self)
    rw [hcons, List.cons_append, List.dropWhile_cons_of_neg (by simp [hc])]
  rw [parse_of_body hweb.scheme (congrArg Reference.body hreference), hstart,
    ofAuthority_append hweb.scheme hslash (by simp [isAnySlash])] at h
  cases hparsed : parseAuthority u.scheme b.machine.toList with
  | error => simp [hparsed, Except.map] at h
  | ok parsed =>
    obtain ⟨c, rest⟩ := parsed
    obtain ⟨rfl, rfl⟩ := parseAuthority_machine hweb.scheme hfound hnumber hparsed
    rw [hparsed, hreference] at h
    cases h
    have hpath : absolutePath u.scheme ([] ++ ['/']) = .names [""] := by
      rw [List.nil_append, absolutePath, hweb.scheme.isSlash]
      exact congrArg UrlPath.names (addName_of_isName hweb.scheme isName_empty)
    dsimp only
    rw [hpath]
    rfl

end Url

end ContentSync
