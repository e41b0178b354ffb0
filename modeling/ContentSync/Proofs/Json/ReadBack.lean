import ContentSync.Json.Decode
import ContentSync.Proofs.Json.Spelling

/-!
# Reading back what was written

A value whose numbers are integers is read back from its text, whatever characters its strings have,
as long as its containers are not nested too deep.

* `quoted?_escape`, `Quoted.text?_ofText` — strings;
* `literal?_ofInt`, `Literal.number?_ofInt` — integers;
* `Json.Storable` — the values that are read back;
* `Json.written`, `Json.Storable.parse?_of_spelled` — the tree of a value, read from its text in any
  layout;
* `Json.Storable.valueWithin?_written` — the value of that tree;
* `Json.Storable.parse?_compact` — the two together.
-/

set_option autoImplicit false

namespace ContentSync

open Written Layout

/-! ## Strings -/

/-- How a character is written inside quotes. -/
def Piece.ofChar (c : Char) : Piece :=
  if c.toNat < 0x20 ∧ c ∉ ['\n', '\r', '\t', '\x08', '\x0c'] then .unit c.toNat else .char c

/-- How a text is written inside quotes. -/
def Quoted.ofText (text : String) : Quoted := text.toList.map .ofChar

theorem hexValue?_hexDigit {n : Nat} (h : n < 16) : hexValue? (Json.hexDigit n) = some n := by
  have hall : ∀ n < 16, hexValue? (Json.hexDigit n) = some n := by decide
  exact hall n h

/-- One character is read back from its escape. -/
theorem quoted?_escape_append (fuel : Nat) (c : Char) (cs : List Char) :
    quoted? (fuel + 1) (Json.escape c ++ cs) =
      (quoted? fuel cs).map fun r => (Piece.ofChar c :: r.1, r.2) := by
  by_cases hletter : c ∈ ['"', '\\', '\n', '\r', '\t', '\x08', '\x0c']
  · simp only [List.mem_cons, List.not_mem_nil, or_false] at hletter
    obtain rfl | rfl | rfl | rfl | rfl | rfl | rfl := hletter <;>
    · cases h : quoted? fuel cs <;> simp [Json.escape, Piece.ofChar, quoted?, h]
  · simp only [List.mem_cons, List.not_mem_nil, or_false, not_or] at hletter
    obtain ⟨hquote, hback, hn, hr, ht, hb, hf⟩ := hletter
    by_cases hcontrol : c.toNat < 0x20
    · have hhigh : c.toNat / 16 < 16 := by omega
      have hlow : c.toNat % 16 < 16 := by omega
      have hvalue : c.toNat / 16 * 16 + c.toNat % 16 = c.toNat := by omega
      have hzero : hexValue? '0' = some 0 := by decide
      cases h : quoted? fuel cs <;>
        simp [Json.escape, Piece.ofChar, quoted?, hexUnit?, hexValue?_hexDigit, *]
    · have hlt : ¬ c < ' ' := fun h => hcontrol h
      cases h : quoted? fuel cs <;> simp [Json.escape, Piece.ofChar, quoted?, *]

/-- **The characters of a text are read back** up to the closing quote. -/
theorem quoted?_escape {fuel : Nat} {text rest : List Char} (h : text.length < fuel) :
    quoted? fuel (text.flatMap Json.escape ++ '"' :: rest) = some (text.map .ofChar, rest) := by
  induction text generalizing fuel with
  | nil =>
    obtain ⟨fuel, rfl⟩ := Nat.exists_eq_add_of_lt h
    simp [quoted?]
  | cons c text ih =>
    obtain ⟨fuel, rfl⟩ := Nat.exists_eq_add_of_lt h
    simp only [List.length_cons] at h ⊢
    rw [List.flatMap_cons, List.append_assoc, quoted?_escape_append, ih (by omega)]
    simp

/-- A unit that is no surrogate stands for a character, whatever follows it. -/
theorem Quoted.chars?_unit {u : Nat} (hhigh : isHighSurrogate u = false)
    (hlow : isLowSurrogate u = false) (q : Quoted) :
    chars? (.unit u :: q) = (chars? q).map (Char.ofNat u :: ·) := by
  cases q with
  | nil => simp [chars?, hhigh, hlow]
  | cons p q => cases p <;> simp [chars?, hhigh, hlow]

/-- **The characters of a text are those for which they were written.** -/
theorem Quoted.text?_ofText (text : String) : Quoted.text? (.ofText text) = some text := by
  have hchars : ∀ cs : List Char, Quoted.chars? (cs.map .ofChar) = some cs := by
    intro cs
    induction cs with
    | nil => rfl
    | cons c cs ih =>
      rw [List.map_cons, Piece.ofChar]
      split
      · have hhigh : isHighSurrogate c.toNat = false := by
          simp [isHighSurrogate]
          omega
        have hlow : isLowSurrogate c.toNat = false := by
          simp [isLowSurrogate]
          omega
        rw [chars?_unit hhigh hlow, ih, Char.ofNat_toNat]
        rfl
      · simp [chars?, ih]
  simp [Quoted.text?, Quoted.ofText, hchars]

/-! ## Integers -/

/-- What may follow a value in a text. -/
def Delimited (cs : List Char) : Prop :=
  ∀ c ∈ cs.head?, isBlank c = true ∨ c ∈ [',', ']', '\x7d']

theorem delimited_nil : Delimited [] := nofun

theorem delimited_cons {c : Char} (h : isBlank c = true ∨ c ∈ [',', ']', '\x7d'])
    (cs : List Char) : Delimited (c :: cs) := by
  rintro d ⟨⟩
  exact h

theorem delimited_append {bs cs : List Char} (hbs : AllBlank bs) (hcs : Delimited cs) :
    Delimited (bs ++ cs) := by
  cases bs with
  | nil => exact hcs
  | cons b bs => exact delimited_cons (.inl (hbs b List.mem_cons_self)) _

theorem isBlank_iff {c : Char} : isBlank c = true ↔ c ∈ [' ', '\t', '\n', '\r'] := by
  simp [isBlank, or_assoc]

theorem Delimited.not_isDigit {c : Char} {cs : List Char} (h : Delimited (c :: cs)) :
    c.isDigit = false ∧ c ≠ '.' ∧ c ≠ 'e' ∧ c ≠ 'E' := by
  have hall : ∀ c ∈ [' ', '\t', '\n', '\r'] ++ [',', ']', '\x7d'],
      c.isDigit = false ∧ c ≠ '.' ∧ c ≠ 'e' ∧ c ≠ 'E' := by simp
  exact hall c (List.mem_append.2 ((h c rfl).imp_left isBlank_iff.1))

/-- How an integer is written. -/
def Literal.ofInt (z : Int) : Literal := ⟨z < 0, Nat.toDigits 10 z.natAbs, none, none⟩

theorem Number.toList_text (z : Int) : (Number.integer z).text.toList =
    if z < 0 then '-' :: Nat.toDigits 10 z.natAbs else Nat.toDigits 10 z.natAbs := by
  have htext : (Number.integer z).text = z.repr := rfl
  rw [htext, Int.repr_eq_if]
  by_cases hz : z < 0
  · rw [if_neg (by omega), if_pos hz, String.toList_append, Nat.toList_repr,
      show (-z).toNat = z.natAbs by omega]
    rfl
  · rw [if_pos (by omega), if_neg hz, Nat.toList_repr, show z.toNat = z.natAbs by omega]

/-- No zero stands in front of the digits of another number than zero. -/
theorem head?_toDigits {n : Nat} (hn : n ≠ 0) : (Nat.toDigits 10 n).head? ≠ some '0' := by
  induction n using Nat.strongRecOn with
  | ind n ih =>
    by_cases hlt : n < 10
    · rw [Nat.toDigits_of_lt_base hlt]
      have hall : ∀ n < 10, n ≠ 0 → some n.digitChar ≠ some '0' := by decide
      exact hall n hlt hn
    · rw [Nat.toDigits_of_base_le (by omega) (by omega), List.head?_append]
      have hdigits : (Nat.toDigits 10 (n / 10)).head? ≠ none := by simp
      cases hhead : (Nat.toDigits 10 (n / 10)).head? with
      | none => exact absurd hhead hdigits
      | some c =>
        have := ih (n / 10) (by omega) (by omega)
        rwa [hhead] at this

theorem digits?_toDigits (n : Nat) {rest : List Char} (hrest : Delimited rest) :
    digits? (Nat.toDigits 10 n ++ rest) = some (Nat.toDigits 10 n, rest) := by
  have hdigits : ∀ c ∈ Nat.toDigits 10 n, c.isDigit = true := fun c hc =>
    Nat.isDigit_of_mem_toDigits (by omega) (by omega) hc
  have hstop : rest.takeWhile Char.isDigit = [] ∧ rest.dropWhile Char.isDigit = rest := by
    cases rest with
    | nil => exact ⟨rfl, rfl⟩
    | cons c cs => simp [hrest.not_isDigit.1]
  have hne : Nat.toDigits 10 n ≠ [] := Nat.toDigits_ne_nil
  unfold digits?
  rw [List.takeWhile_append_of_pos hdigits, List.dropWhile_append_of_pos hdigits, hstop.1, hstop.2,
    List.append_nil]
  split
  · contradiction
  · rfl

theorem wholeDigits?_toDigits (n : Nat) {rest : List Char} (hrest : Delimited rest) :
    wholeDigits? (Nat.toDigits 10 n ++ rest) = some (Nat.toDigits 10 n, rest) := by
  by_cases hn : n = 0
  · subst hn
    cases rest with
    | nil => rfl
    | cons c cs => simp [wholeDigits?, hrest.not_isDigit.1]
  · have hhead := head?_toDigits hn
    rw [← digits?_toDigits n hrest]
    unfold wholeDigits?
    split
    · rename_i c cs heq
      cases hdigits : Nat.toDigits 10 n with
      | nil => exact absurd hdigits Nat.toDigits_ne_nil
      | cons d ds =>
        rw [hdigits] at heq hhead
        obtain rfl : d = '0' := (List.cons.inj heq).1
        exact absurd rfl hhead
    · rfl

/-- **The literal of an integer is read back.** -/
theorem literal?_ofInt (z : Int) {rest : List Char} (hrest : Delimited rest) :
    literal? ((Number.integer z).text.toList ++ rest) = some (.ofInt z, rest) := by
  have hfraction : fraction? rest = some (none, rest) := by
    unfold fraction?
    split
    · exact absurd rfl hrest.not_isDigit.2.1
    · rfl
  have hexponent : exponent? rest = some (none, rest) := by
    unfold exponent?
    split
    · simp [hrest.not_isDigit]
    · rfl
  rw [Number.toList_text]
  by_cases hz : z < 0
  · simp [literal?, hz, wholeDigits?_toDigits _ hrest, hfraction, hexponent, Literal.ofInt]
  · obtain ⟨d, ds, hdigits⟩ := List.exists_cons_of_ne_nil
      (Nat.toDigits_ne_nil (n := z.natAbs) (b := 10))
    have hd : d.isDigit = true :=
      Nat.isDigit_of_mem_toDigits (by omega) (by omega) (hdigits ▸ List.mem_cons_self)
    have hminus : d ≠ '-' := by
      rintro rfl
      exact absurd hd (by decide)
    have hwhole := wholeDigits?_toDigits z.natAbs hrest
    rw [hdigits] at hwhole
    simp only [literal?, if_neg hz, Literal.ofInt, hdigits]
    simp_all

/-! ## Values -/

namespace Json

/-- A value that can be stored with room for some nested containers: its numbers are integers of 64
bits, and the members of its objects are sorted and do not repeat. -/
inductive Storable : Nat → Json → Prop
  | null {room : Nat} : Storable room .null
  | bool {room : Nat} (b : Bool) : Storable room (.bool b)
  | integer {room : Nat} {z : Int} (least : -(Number.smallestInteger : Int) ≤ z)
    (most : z ≤ Number.largestInteger) : Storable room (.number (.integer z))
  | string {room : Nat} (s : String) : Storable room (.string s)
  | array {room : Nat} {items : List Json} (items_storable : ∀ v ∈ items, Storable room v) :
    Storable (room + 1) (.array items)
  | object {room : Nat} {members : List (String × Json)}
    (sorted : members.Pairwise fun a b => a.1 < b.1)
    (members_storable : ∀ m ∈ members, Storable room m.2) : Storable (room + 1) (.object members)

mutual

/-- The tree of the text of a value. Floats are not considered. -/
def written : Json → Written
  | .null => .null
  | .bool b => .bool b
  | .number (.integer z) => .number (.ofInt z)
  | .number (.float _ _) => .null
  | .string s => .string (.ofText s)
  | .array items => .array (writtenItems items)
  | .object members => .object (writtenMembers members)

def writtenItems : List Json → List Written
  | [] => []
  | v :: rest => v.written :: writtenItems rest

def writtenMembers : List (String × Json) → List (Quoted × Written)
  | [] => []
  | (k, v) :: rest => (.ofText k, v.written) :: writtenMembers rest

end

/-- The tree of a value is read from its text, whatever stands around it. -/
def Readable (l : Layout) (v : Json) : Prop :=
  ∀ (depth fuel : Nat) (bs rest : List Char), AllBlank bs → Delimited rest →
    (v.spelled l depth).length ≤ fuel →
    tree? fuel (bs ++ (v.spelled l depth ++ rest)) = some (v.written, rest)

end Json

/-- Blanks are skipped up to the first other character. -/
theorem skipBlanks_append {bs : List Char} (hbs : AllBlank bs) {c : Char} (hc : isBlank c = false)
    (cs : List Char) : skipBlanks (bs ++ c :: cs) = c :: cs := by
  rw [skipBlanks, List.dropWhile_append_of_pos hbs]
  simp [hc]

theorem skipBlanks_cons {c : Char} (hc : isBlank c = false) (cs : List Char) :
    skipBlanks (c :: cs) = c :: cs :=
  skipBlanks_append allBlank_nil hc cs

/-- The first character of an integer. -/
theorem Number.exists_head (z : Int) : ∃ c cs, (Number.integer z).text.toList = c :: cs ∧
    (c = '-' ∨ c.isDigit = true) := by
  obtain ⟨d, ds, hdigits⟩ := List.exists_cons_of_ne_nil
    (Nat.toDigits_ne_nil (n := z.natAbs) (b := 10))
  rw [toList_text, hdigits]
  split
  · exact ⟨_, _, rfl, .inl rfl⟩
  · exact ⟨d, ds, rfl, .inr (Nat.isDigit_of_mem_toDigits (by omega) (by omega)
      (hdigits ▸ List.mem_cons_self))⟩

/-- A character that begins a number begins nothing else. -/
theorem ne_of_begins_number {c : Char} (hc : c = '-' ∨ c.isDigit = true) : isBlank c = false ∧
    c ∉ ['n', 't', 'f', '"', '[', ']', '\x7b', '\x7d'] := by
  have hall : ∀ c ∈ [' ', '\t', '\n', '\r'] ++ ['n', 't', 'f', '"', '[', ']', '\x7b', '\x7d'],
      ¬ (c = '-' ∨ c.isDigit = true) := by simp
  constructor
  · by_contra hblank
    rw [Bool.not_eq_false, isBlank_iff] at hblank
    exact hall c (List.mem_append_left _ hblank) hc
  · intro hmem
    exact hall c (List.mem_append_right _ hmem) hc

theorem tree?_of_begins_number {fuel : Nat} {c : Char} (hc : c = '-' ∨ c.isDigit = true)
    {bs : List Char} (hbs : AllBlank bs) (cs : List Char) :
    tree? (fuel + 1) (bs ++ c :: cs) = (literal? (c :: cs)).map fun r => (.number r.1, r.2) := by
  obtain ⟨hblank, hne⟩ := ne_of_begins_number hc
  rw [tree?, skipBlanks_append hbs hblank]
  split <;> simp_all

namespace Json

variable {l : Layout} {v : Json} {room : Nat}

/-- The first character of a value. -/
theorem Storable.exists_head (hv : v.Storable room) (l : Layout) (depth : Nat) :
    ∃ c cs, v.spelled l depth = c :: cs ∧ isBlank c = false ∧ c ≠ ']' := by
  cases hv with
  | null => exact ⟨_, _, rfl, rfl, by decide⟩
  | bool b => cases b <;> exact ⟨_, _, rfl, rfl, by decide⟩
  | integer =>
    obtain ⟨c, cs, heq, hc⟩ := Number.exists_head _
    obtain ⟨hblank, hne⟩ := ne_of_begins_number hc
    exact ⟨c, cs, heq, hblank, by rintro rfl; simp at hne⟩
  | string => exact ⟨_, _, rfl, rfl, by decide⟩
  | @array _ items => cases items <;> exact ⟨_, _, rfl, rfl, by decide⟩
  | @object _ members => cases members <;> exact ⟨_, _, rfl, rfl, by decide⟩

/-- A text in quotes is read back. -/
theorem quoted?_quoted (text : String) (rest : List Char) :
    ∃ cs, quoted text ++ rest = '"' :: cs ∧
      quoted? (cs.length + 1) cs = some (.ofText text, rest) := by
  refine ⟨text.toList.flatMap escape ++ '"' :: rest, by simp [quoted], quoted?_escape ?_⟩
  have hescape : ∀ c, 1 ≤ (escape c).length := by
    intro c
    simp only [escape]
    split_ifs <;> simp
  have hlength : ∀ cs : List Char, cs.length ≤ (cs.flatMap escape).length := by
    intro cs
    induction cs with
    | nil => simp
    | cons c cs ih =>
      have := hescape c
      simp only [List.flatMap_cons, List.length_append, List.length_cons]
      omega
  have := hlength text.toList
  simp only [List.length_append]
  omega

/-- What follows a value inside a container is no part of it. -/
theorem delimited_spelledItems (hl : l.Lawful) (depth : Nat) (items : List Json) (rest : List Char) :
    Delimited (spelledItems l depth items ++ rest) := by
  cases items with
  | nil =>
    rw [spelledItems, List.append_assoc]
    exact delimited_append (hl.line depth) (delimited_cons (.inr (by decide)) _)
  | cons => exact delimited_cons (.inr (by decide)) _

theorem delimited_spelledMembers (hl : l.Lawful) (depth : Nat) (members : List (String × Json))
    (rest : List Char) : Delimited (spelledMembers l depth members ++ rest) := by
  cases members with
  | nil =>
    rw [spelledMembers, List.append_assoc]
    exact delimited_append (hl.line depth) (delimited_cons (.inr (by decide)) _)
  | cons => exact delimited_cons (.inr (by decide)) _

/-- The items of an array are read back, if each of them is. -/
theorem items?_spelled (hl : l.Lawful) {items : List Json} (hv : v.Readable l)
    (hitems : ∀ w ∈ items, Readable l w) {depth fuel : Nat} {bs rest : List Char}
    (hbs : AllBlank bs)
    (hfuel : (v.spelled l (depth + 1) ++ spelledItems l depth items).length ≤ fuel) :
    items? fuel (bs ++ (v.spelled l (depth + 1) ++ (spelledItems l depth items ++ rest))) =
      some (v.written :: writtenItems items, rest) := by
  induction items generalizing v fuel bs with
  | nil =>
    simp only [spelledItems, List.length_append, List.length_singleton] at hfuel
    obtain ⟨fuel, rfl⟩ := Nat.exists_eq_add_one.2 (show 0 < fuel by omega)
    have hend := skipBlanks_append (hl.line depth) (c := ']') rfl rest
    rw [items?, hv _ _ _ _ hbs (delimited_spelledItems hl depth [] rest) (by omega)]
    simp [spelledItems, hend, writtenItems]
  | cons w items ih =>
    obtain ⟨hw, hitems⟩ := List.forall_mem_cons.1 hitems
    simp only [spelledItems, List.length_append, List.length_cons] at hfuel
    obtain ⟨fuel, rfl⟩ := Nat.exists_eq_add_one.2 (show 0 < fuel by omega)
    have hrest := ih hw hitems (hl.line (depth + 1)) (show _ ≤ fuel by
      rw [List.length_append]
      omega)
    rw [items?, hv _ _ _ _ hbs (delimited_spelledItems hl depth (w :: items) rest) (by omega)]
    simp [spelledItems, skipBlanks_cons, isBlank, hrest, writtenItems]

/-- The key of a member is read back, and its value comes next. -/
theorem members?_quoted {bs : List Char} (hbs : AllBlank bs) (fuel : Nat) (k : String)
    (cs : List Char) :
    members? (fuel + 1) (bs ++ (quoted k ++ ':' :: cs)) =
      (tree? fuel cs).bind fun value =>
        match skipBlanks value.2 with
        | '\x7d' :: rest => some ([(.ofText k, value.1)], rest)
        | ',' :: rest =>
          (members? fuel rest).bind fun members =>
            some ((.ofText k, value.1) :: members.1, members.2)
        | _ => none := by
  obtain ⟨ds, heq, hkey⟩ := quoted?_quoted k (':' :: cs)
  have hcolon := skipBlanks_cons (c := ':') rfl cs
  rw [heq, members?, skipBlanks_append hbs rfl]
  simp only [hkey, hcolon, Option.bind_eq_bind, Option.bind_some]
  rfl

/-- The members of an object are read back, if the value of each of them is. -/
theorem members?_spelled (hl : l.Lawful) {members : List (String × Json)} {k : String}
    (hv : v.Readable l) (hmembers : ∀ m ∈ members, Readable l m.2) {depth fuel : Nat}
    {bs rest : List Char} (hbs : AllBlank bs)
    (hfuel : (v.spelled l (depth + 1) ++ spelledMembers l depth members).length ≤ fuel) :
    members? fuel (bs ++ (quoted k ++ ':' :: (l.gap ++ (v.spelled l (depth + 1) ++
        (spelledMembers l depth members ++ rest))))) =
      some ((.ofText k, v.written) :: writtenMembers members, rest) := by
  induction members generalizing k v fuel bs with
  | nil =>
    simp only [spelledMembers, List.length_append, List.length_singleton] at hfuel
    obtain ⟨fuel, rfl⟩ := Nat.exists_eq_add_one.2 (show 0 < fuel by omega)
    have hend := skipBlanks_append (hl.line depth) (c := '\x7d') rfl rest
    rw [members?_quoted hbs,
      hv _ _ _ _ hl.gap (delimited_spelledMembers hl depth [] rest) (by omega)]
    simp [spelledMembers, hend, writtenMembers]
  | cons m members ih =>
    obtain ⟨key, w⟩ := m
    obtain ⟨hw, hmembers⟩ := List.forall_mem_cons.1 hmembers
    dsimp only at hw
    simp only [spelledMembers, List.length_append, List.length_cons] at hfuel
    obtain ⟨fuel, rfl⟩ := Nat.exists_eq_add_one.2 (show 0 < fuel by omega)
    have hrest := ih (k := key) hw hmembers (hl.line (depth + 1)) (show _ ≤ fuel by
      rw [List.length_append]
      omega)
    rw [members?_quoted hbs,
      hv _ _ _ _ hl.gap (delimited_spelledMembers hl depth ((key, w) :: members) rest) (by omega)]
    simp [spelledMembers, skipBlanks_cons, isBlank, hrest, writtenMembers]

theorem Storable.readable_of_succ (hv : v.Storable room)
    (h : ∀ (depth fuel : Nat) (bs rest : List Char), AllBlank bs → Delimited rest →
      (v.spelled l depth).length ≤ fuel + 1 →
      tree? (fuel + 1) (bs ++ (v.spelled l depth ++ rest)) = some (v.written, rest)) :
    v.Readable l := by
  intro depth fuel bs rest hbs hrest hfuel
  obtain ⟨c, cs, heq, -⟩ := hv.exists_head l depth
  obtain ⟨fuel, rfl⟩ := Nat.exists_eq_add_one.2 (show 0 < fuel by
    rw [heq, List.length_cons] at hfuel
    omega)
  exact h depth fuel bs rest hbs hrest hfuel

/-- An array is read back, if each of its items is. -/
theorem Storable.readable_array {items : List Json} (hv : (Json.array items).Storable room)
    (hl : l.Lawful) (hread : ∀ w ∈ items, Readable l w) : (Json.array items).Readable l := by
  refine hv.readable_of_succ fun depth fuel bs rest hbs _ hfuel => ?_
  cases hv with
  | array hitems =>
    cases items with
    | nil =>
      simp only [spelled, List.cons_append, List.nil_append]
      rw [tree?, skipBlanks_append hbs rfl]
      rfl
    | cons v items =>
      obtain ⟨hv, hrest⟩ := List.forall_mem_cons.1 hread
      obtain ⟨c, cs, heq, hc, hend⟩ := (hitems v List.mem_cons_self).exists_head l (depth + 1)
      simp only [spelled, List.length_cons, List.length_append] at hfuel
      have hread : items? fuel (v.spelled l (depth + 1) ++ (spelledItems l depth items ++ rest)) =
          some (v.written :: writtenItems items, rest) :=
        items?_spelled hl hv hrest allBlank_nil (by rw [List.length_append]; omega)
      simp only [spelled, List.cons_append, List.append_assoc]
      rw [tree?, skipBlanks_append hbs rfl]
      simp only [heq, List.cons_append] at hread ⊢
      rw [skipBlanks_append (hl.line _) hc]
      split
      · simp_all
      · simp [hread, written, writtenItems]

/-- An object is read back, if the value of each of its members is. -/
theorem Storable.readable_object {members : List (String × Json)}
    (hv : (Json.object members).Storable room) (hl : l.Lawful)
    (hread : ∀ m ∈ members, Readable l m.2) : (Json.object members).Readable l := by
  refine hv.readable_of_succ fun depth fuel bs rest hbs _ hfuel => ?_
  cases members with
  | nil =>
    simp only [spelled, List.cons_append, List.nil_append]
    rw [tree?, skipBlanks_append hbs rfl]
    rfl
  | cons m members =>
    obtain ⟨k, v⟩ := m
    obtain ⟨hv, hrest⟩ := List.forall_mem_cons.1 hread
    dsimp only at hv
    simp only [spelled, List.length_cons, List.length_append] at hfuel
    have hread : members? fuel (quoted k ++ ':' :: (l.gap ++ (v.spelled l (depth + 1) ++
        (spelledMembers l depth members ++ rest)))) =
        some ((.ofText k, v.written) :: writtenMembers members, rest) :=
      members?_spelled hl hv hrest allBlank_nil (by rw [List.length_append]; omega)
    simp only [spelled, List.cons_append, List.append_assoc]
    rw [tree?, skipBlanks_append hbs rfl]
    simp only [quoted, List.cons_append, List.append_assoc, List.nil_append] at hread ⊢
    rw [skipBlanks_append (hl.line _) rfl]
    simp [hread, written, writtenMembers]

/-- **A value that can be stored is read back**, in any layout. -/
theorem Storable.readable (hv : v.Storable room) (hl : l.Lawful) : v.Readable l := by
  induction v using induct generalizing room with
  | null =>
    refine hv.readable_of_succ fun depth fuel bs rest hbs _ _ => ?_
    simp only [spelled, List.cons_append, List.nil_append]
    rw [tree?, skipBlanks_append hbs rfl]
    rfl
  | bool b =>
    refine hv.readable_of_succ fun depth fuel bs rest hbs _ _ => ?_
    cases b <;>
    · simp only [spelled, List.cons_append, List.nil_append]
      rw [tree?, skipBlanks_append hbs rfl]
      rfl
  | number n =>
    refine hv.readable_of_succ fun depth fuel bs rest hbs hrest _ => ?_
    cases hv with
    | @integer _ z =>
      obtain ⟨c, cs, heq, hc⟩ := Number.exists_head z
      have hliteral := literal?_ofInt z hrest
      rw [heq] at hliteral
      simp only [spelled, heq, List.cons_append] at hliteral ⊢
      rw [tree?_of_begins_number hc hbs, hliteral]
      rfl
  | string s =>
    refine hv.readable_of_succ fun depth fuel bs rest hbs _ _ => ?_
    obtain ⟨cs, heq, hkey⟩ := quoted?_quoted s rest
    simp only [spelled, heq]
    rw [tree?, skipBlanks_append hbs rfl]
    simp only [hkey]
    rfl
  | array items ih =>
    refine hv.readable_array hl fun w hw => ?_
    cases hv with
    | array hitems => exact ih w hw (hitems w hw)
  | object members ih =>
    refine hv.readable_object hl fun m hm => ?_
    cases hv with
    | object _ hmembers => exact ih m hm (hmembers m hm)

/-- **The tree of a value is read from its text**, which may be written in any layout. -/
theorem Storable.parse?_of_spelled (hv : v.Storable room) (hl : l.Lawful) {text : String}
    (htext : text.toList = v.spelled l 0) : Written.parse? text = some v.written := by
  have hread := hv.readable hl 0 ((v.spelled l 0).length + 1) [] [] allBlank_nil delimited_nil
    (Nat.le_succ _)
  rw [List.nil_append, List.append_nil] at hread
  rw [Written.parse?, htext, hread]
  rfl

end Json

/-! ## Meaning -/

/-- **The integer of a literal** is the one that was written. -/
theorem Literal.number?_ofInt {z : Int} (least : -(Number.smallestInteger : Int) ≤ z)
    (most : z ≤ Number.largestInteger) : (Literal.ofInt z).number? = some (.integer z) := by
  have hvalue : digitsValue (Nat.toDigits 10 z.natAbs) = z.natAbs :=
    Nat.ofDigitChars_toDigits (by omega) (by omega)
  simp only [number?, Literal.ofInt, hvalue]
  by_cases hz : z < 0
  · rw [if_pos (decide_eq_true hz), if_neg (by omega), if_pos (by omega),
      show -(z.natAbs : Int) = z by omega]
  · rw [if_neg (by simpa using hz), if_pos (by omega), show (z.natAbs : Int) = z by omega]

namespace Json

variable {v : Json} {room : Nat}

/-- A member with a larger key than all others comes last. -/
theorem insertMember_eq_append {key : String} {members : List (String × Json)}
    (h : ∀ m ∈ members, m.1 < key) (value : Json) :
    insertMember key value members = members ++ [(key, value)] := by
  induction members with
  | nil => rfl
  | cons m members ih =>
    obtain ⟨k, w⟩ := m
    obtain ⟨hk, hmembers⟩ := List.forall_mem_cons.1 h
    dsimp only at hk
    have hne : key ≠ k := by
      rintro rfl
      exact String.lt_irrefl key hk
    rw [insertMember, if_neg (String.lt_asymm hk), if_neg hne, ih hmembers, List.cons_append]

/-- **The object with sorted members** has these members. -/
theorem ofMembers_eq {members : List (String × Json)}
    (sorted : members.Pairwise fun a b => a.1 < b.1) : ofMembers members = .object members := by
  have hfold : ∀ before after : List (String × Json),
      (before ++ after).Pairwise (fun a b => a.1 < b.1) →
      after.foldl (fun sorted m => insertMember m.1 m.2 sorted) before = before ++ after := by
    intro before after h
    induction after generalizing before with
    | nil => simp
    | cons m after ih =>
      have hm : ∀ b ∈ before, b.1 < m.1 := fun b hb =>
        (List.pairwise_append.1 h).2.2 b hb m List.mem_cons_self
      rw [List.foldl_cons, insertMember_eq_append hm, ih _ (by simpa using h), List.append_assoc]
      rfl
  rw [ofMembers, hfold [] members sorted, List.nil_append]

theorem itemsWithin?_writtenItems {items : List Json}
    (h : ∀ v ∈ items, valueWithin? room v.written = some v) :
    itemsWithin? room (writtenItems items) = some items := by
  induction items with
  | nil => rfl
  | cons v items ih =>
    obtain ⟨hv, hitems⟩ := List.forall_mem_cons.1 h
    simp [writtenItems, itemsWithin?, hv, ih hitems]

theorem membersWithin?_writtenMembers {members : List (String × Json)}
    (h : ∀ m ∈ members, valueWithin? room m.2.written = some m.2) :
    membersWithin? room (writtenMembers members) = some members := by
  induction members with
  | nil => rfl
  | cons m members ih =>
    obtain ⟨k, v⟩ := m
    obtain ⟨hv, hmembers⟩ := List.forall_mem_cons.1 h
    dsimp only at hv
    simp [writtenMembers, membersWithin?, Quoted.text?_ofText, hv, ih hmembers]

/-- **The value of the tree of a value** is the value, if it does not nest deeper than there is room
for. -/
theorem Storable.valueWithin?_written (hv : v.Storable room) :
    v.written.valueWithin? room = some v := by
  induction v using induct generalizing room with
  | null => rfl
  | bool b => rfl
  | number n =>
    cases hv with
    | integer least most => simp [written, valueWithin?, Literal.number?_ofInt least most]
  | string s => simp [written, valueWithin?, Quoted.text?_ofText]
  | array items ih =>
    cases hv with
    | array hitems =>
      have hread := itemsWithin?_writtenItems fun v hv => ih v hv (hitems v hv)
      simp [written, valueWithin?, hread]
  | object members ih =>
    cases hv with
    | object sorted hmembers =>
      have hread := membersWithin?_writtenMembers fun m hm => ih m hm (hmembers m hm)
      simp [written, valueWithin?, hread, ofMembers_eq sorted]

/-- **A payload that can be stored is read back from its text.** -/
theorem Storable.parse?_compact (hv : v.Storable nestingLimit) :
    Json.parse? v.compact = some v := by
  rw [Json.parse?, hv.parse?_of_spelled lawful_dense (toList_compact v 0)]
  exact hv.valueWithin?_written

end Json

end ContentSync
