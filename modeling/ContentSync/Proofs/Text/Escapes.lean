import ContentSync.Proofs.Text.Bytes

/-!
# Texts that stand for themselves

A text is changed by percent-decoding exactly where two hexadecimal digits follow a `%`.

* `Text.Escaped` — two digits follow a `%` somewhere;
* `Text.decodeBytes_length_le` — decoding makes nothing longer;
* `Text.decodeText?_eq_self_iff` — the texts that are decoded to themselves.
-/

set_option autoImplicit false

namespace ContentSync.Text

variable {c : Char} {cs : List Char} {b : UInt8} {bytes rest : List UInt8} {x : Nat}

/-! ## Digits -/

def isHex (c : Char) : Bool := c.isDigit || 'a' ≤ c && c ≤ 'f' || 'A' ≤ c && c ≤ 'F'

/-- Two digits follow a `%` somewhere. -/
def Escaped (cs : List Char) : Prop :=
  ∃ front a b rest, cs = front ++ '%' :: a :: b :: rest ∧ isHex a = true ∧ isHex b = true

theorem escaped_cons : Escaped (c :: cs) ↔
    (c = '%' ∧ ∃ a b rest, cs = a :: b :: rest ∧ isHex a = true ∧ isHex b = true) ∨
      Escaped cs := by
  constructor
  · rintro ⟨front, a, b, rest, heq, ha, hb⟩
    cases front with
    | nil =>
      obtain ⟨rfl, rfl⟩ := List.cons.inj heq
      exact .inl ⟨rfl, a, b, rest, rfl, ha, hb⟩
    | cons d front =>
      obtain ⟨-, rfl⟩ := List.cons.inj heq
      exact .inr ⟨front, a, b, rest, rfl, ha, hb⟩
  · rintro (⟨rfl, a, b, rest, rfl, ha, hb⟩ | ⟨front, a, b, rest, rfl, ha, hb⟩)
    · exact ⟨[], a, b, rest, rfl, ha, hb⟩
    · exact ⟨c :: front, a, b, rest, rfl, ha, hb⟩

theorem not_escaped_of_not_mem (h : '%' ∉ cs) : ¬ Escaped cs := by
  rintro ⟨front, a, b, rest, rfl, -, -⟩
  exact h (by simp)

/-- Digits of bytes are digits of characters. -/
theorem isSome_hexByte? (h : c.toNat < 0x80) :
    (hexByte? (UInt8.ofNat c.toNat)).isSome = isHex c :=
  forall_ascii (p := fun c => (hexByte? (UInt8.ofNat c.toNat)).isSome = isHex c)
    (by decide +kernel) h

theorem ascii_of_hexByte? (h : hexByte? b = some x) : b.toNat < 0x80 := by
  simp only [hexByte?] at h
  grind

theorem ascii_of_isHex (h : isHex c = true) : c.toNat < 0x80 := by
  have hval : c.toNat = c.val.toNat := rfl
  simp only [isHex, Char.isDigit, Bool.or_eq_true, Bool.and_eq_true, decide_eq_true_eq,
    Char.le_def, UInt32.le_iff_toNat_le] at h
  obtain (⟨-, h⟩ | ⟨-, h⟩) | ⟨-, h⟩ := h <;> exact hval ▸ Nat.lt_of_le_of_lt h (by decide)

/-- A digit among the bytes of a text is a character of it. -/
theorem exists_of_flatMap_eq_cons (h : cs.flatMap String.utf8EncodeChar = b :: rest)
    (hb : hexByte? b = some x) : ∃ c more, cs = c :: more ∧ isHex c = true ∧
      more.flatMap String.utf8EncodeChar = rest := by
  cases cs with
  | nil => cases h
  | cons c more =>
    have hascii := ascii_of_hexByte? hb
    rw [List.flatMap_cons] at h
    have hmem : b ∈ String.utf8EncodeChar c := by
      obtain ⟨y, ys, hy⟩ := List.exists_cons_of_ne_nil (String.utf8EncodeChar_ne_nil (c := c))
      rw [hy, List.cons_append] at h
      rw [hy, (List.cons.inj h).1]
      exact List.mem_cons_self
    obtain ⟨hsingle, hnat⟩ := eq_singleton_of_mem_utf8EncodeChar hmem hascii
    rw [hsingle] at h
    refine ⟨c, more, rfl, ?_, (List.cons.inj h).2⟩
    have hbyte : UInt8.ofNat c.toNat = b := by rw [← hnat, UInt8.ofNat_toNat]
    rw [← isSome_hexByte? (by omega), hbyte, hb]
    rfl

/-! ## Decoding -/

theorem decodeBytes_append_of_not_mem (h : 37 ∉ bytes) (rest : List UInt8) :
    decodeBytes (bytes ++ rest) = bytes ++ decodeBytes rest := by
  induction bytes with
  | nil => rfl
  | cons b bytes ih =>
    rw [List.cons_append, decodeBytes_cons_of_ne fun hb => h (hb ▸ List.mem_cons_self),
      ih fun hmem => h (List.mem_cons_of_mem _ hmem), List.cons_append]

/-- Decoding makes nothing longer. -/
theorem decodeBytes_length_le (bytes : List UInt8) : (decodeBytes bytes).length ≤ bytes.length := by
  fun_induction decodeBytes bytes with
  | case1 => exact Nat.le_refl 0
  | case2 a b rest x y hx hy ih => simp only [List.length_cons]; omega
  | case3 a b rest h ih => simpa using ih
  | case4 b rest h ih => simpa using ih

/-- Two digits after a `%` are one byte. -/
theorem decodeBytes_percent_digits {a d : Char} (ha : isHex a = true) (hd : isHex d = true)
    (rest : List UInt8) : ∃ y, decodeBytes (37 :: (String.utf8EncodeChar a ++
      (String.utf8EncodeChar d ++ rest))) = y :: decodeBytes rest := by
  have hascii := ascii_of_isHex ha
  have hascii' := ascii_of_isHex hd
  obtain ⟨x, hx⟩ := Option.isSome_iff_exists.1 ((isSome_hexByte? hascii).trans ha)
  obtain ⟨x', hx'⟩ := Option.isSome_iff_exists.1 ((isSome_hexByte? hascii').trans hd)
  rw [utf8EncodeChar_ascii hascii, utf8EncodeChar_ascii hascii', List.singleton_append,
    List.singleton_append, decodeBytes]
  simp only [hx, hx']
  exact ⟨_, rfl⟩

/-- A `%` that no two digits follow stands for itself. -/
theorem decodeBytes_percent_flatMap
    (h : ∀ a b rest, cs = a :: b :: rest → isHex a = true → isHex b = true → False) :
    decodeBytes (37 :: cs.flatMap String.utf8EncodeChar) =
      37 :: decodeBytes (cs.flatMap String.utf8EncodeChar) := by
  match hbytes : cs.flatMap String.utf8EncodeChar with
  | [] => simp [decodeBytes]
  | [b] => simp [decodeBytes]
  | b :: b' :: rest =>
    refine decodeBytes_percent fun x x' hx hx' => ?_
    obtain ⟨a, more, rfl, ha, hmore⟩ := exists_of_flatMap_eq_cons hbytes hx
    obtain ⟨a', last, rfl, ha', -⟩ := exists_of_flatMap_eq_cons hmore hx'
    exact h a a' last rfl ha ha'

theorem decodeBytes_flatMap_eq_self_iff (cs : List Char) :
    decodeBytes (cs.flatMap String.utf8EncodeChar) = cs.flatMap String.utf8EncodeChar ↔
      ¬ Escaped cs := by
  induction cs with
  | nil => simp [decodeBytes, Escaped]
  | cons c cs ih =>
    rw [escaped_cons, List.flatMap_cons]
    by_cases hc : c = '%'
    · subst hc
      have hpercent : String.utf8EncodeChar '%' = [37] := rfl
      rw [hpercent, List.singleton_append]
      by_cases hdigits : ∃ a b rest, cs = a :: b :: rest ∧ isHex a = true ∧ isHex b = true
      · refine iff_of_false (fun heq => ?_) (fun h => h (.inl ⟨rfl, hdigits⟩))
        -- Three bytes have become one.
        obtain ⟨a, b, rest, rfl, ha, hb⟩ := hdigits
        obtain ⟨y, hy⟩ := decodeBytes_percent_digits ha hb (rest.flatMap String.utf8EncodeChar)
        rw [List.flatMap_cons, List.flatMap_cons, hy] at heq
        have hlength := congrArg List.length heq
        have hle := decodeBytes_length_le (rest.flatMap String.utf8EncodeChar)
        have hpos := List.length_pos_iff.2 (String.utf8EncodeChar_ne_nil (c := a))
        have hpos' := List.length_pos_iff.2 (String.utf8EncodeChar_ne_nil (c := b))
        simp only [List.length_cons, List.length_append] at hlength
        omega
      · rw [decodeBytes_percent_flatMap fun a b rest heq ha hb => hdigits ⟨a, b, rest, heq, ha, hb⟩,
          List.cons_inj_right, ih]
        simp only [hdigits, and_false, false_or]
    · have hnot : 37 ∉ String.utf8EncodeChar c := fun hmem =>
        hc (Char.toNat_inj.1 (eq_singleton_of_mem_utf8EncodeChar hmem (by decide)).2.symm)
      rw [decodeBytes_append_of_not_mem hnot, List.append_cancel_left_eq, ih]
      simp [hc]

theorem utf8Bytes_eq (text : String) : utf8Bytes text = text.toList.flatMap String.utf8EncodeChar := by
  rw [← utf8Bytes_ofList, String.ofList_toList]

theorem length_utf8Bytes_le_of_decodeText? {text decoded : String}
    (h : decodeText? text = some decoded) : (utf8Bytes decoded).length ≤ (utf8Bytes text).length := by
  rw [ofUtf8Bytes?_eq_some.1 h]
  exact decodeBytes_length_le _

/-- **A text is decoded to itself exactly where no two digits follow a `%`.** -/
theorem decodeText?_eq_self_iff {text : String} :
    decodeText? text = some text ↔ ¬ Escaped text.toList := by
  rw [decodeText?, ofUtf8Bytes?_eq_some, percentDecode, utf8Bytes_eq, eq_comm,
    decodeBytes_flatMap_eq_self_iff]

end ContentSync.Text
