import ContentSync.Text.Percent
import Mathlib.Data.Bool.AllAny
import Mathlib.Data.List.Basic

/-!
# The bytes of a text

* `utf8Bytes_ofList`, `ofUtf8Bytes?_eq_some` — the bytes of a text are those of its characters, and they are
  read as this text only;
* `eq_singleton_of_mem_utf8EncodeChar` — a byte of ASCII is a character by itself;
* `decodeText?_eq_self` — without a `%` percent-encoding changes nothing;
* `decodeText?_last` — a control at the end stays there.
-/

set_option autoImplicit false

namespace ContentSync.Text

/-! ## Texts as bytes -/

theorem toList_loop (bytes : ByteArray) (i : Nat) (done : List UInt8) :
    ByteArray.toList.loop bytes i done = done.reverse ++ bytes.data.toList.drop i := by
  induction i, done using ByteArray.toList.loop.induct bytes with
  | case1 i done hi ih =>
    have hsize : i < bytes.data.toList.length := hi
    have hget : bytes.get! i = bytes.data.toList[i] := by
      simp only [ByteArray.get!, Array.getElem_toList]
      exact getElem!_pos bytes.data i hi
    rw [ByteArray.toList.loop, if_pos hi, ih, hget, List.reverse_cons, List.append_assoc,
      List.singleton_append, List.getElem_cons_drop]
  | case2 i done hi =>
    have hsize : bytes.data.toList.length ≤ i := Nat.le_of_not_lt hi
    rw [ByteArray.toList.loop, if_neg hi, List.drop_of_length_le hsize, List.append_nil]

theorem toList_eq (bytes : ByteArray) : bytes.toList = bytes.data.toList := by
  rw [ByteArray.toList, toList_loop]
  rfl

theorem utf8Bytes_ofList (cs : List Char) :
    utf8Bytes (String.ofList cs) = cs.flatMap String.utf8EncodeChar := by
  rw [utf8Bytes, String.toUTF8_eq_toByteArray, toList_eq, String.toByteArray_ofList, List.utf8Encode,
    List.toList_data_toByteArray]

/-- Bytes are read as the text that is written with them. -/
theorem ofUtf8Bytes?_eq_some {bytes : List UInt8} {text : String} :
    ofUtf8Bytes? bytes = some text ↔ utf8Bytes text = bytes := by
  have harray : ∀ b : ByteArray, b = ByteArray.mk b.toList.toArray := fun b => by rw [toList_eq]
  rw [ofUtf8Bytes?, String.fromUTF8?, utf8Bytes]
  constructor
  · intro h
    split at h
    · cases h
      rw [toList_eq]
      rfl
    · cases h
  · rintro rfl
    rw [← harray, dif_pos (by rw [String.toUTF8_eq_toByteArray]; exact text.isValidUTF8)]
    rfl

/-! ## Characters of ASCII -/

/-- What holds for the first 128 code points, which can be tried, holds for the characters of ASCII. -/
theorem forall_ascii {p : Char → Prop} (h : ∀ n < 0x80, p (Char.ofNat n)) {c : Char}
    (hc : c.toNat < 0x80) : p c := by
  have hp := h c.toNat hc
  rwa [Char.ofNat_toNat] at hp

theorem utf8EncodeChar_ascii {c : Char} (h : c.toNat < 0x80) :
    String.utf8EncodeChar c = [UInt8.ofNat c.toNat] := by
  have hval : c.val.toNat ≤ 127 := Nat.le_of_lt_succ h
  rw [String.utf8EncodeChar, if_pos hval]
  rfl

/-- Beyond ASCII no byte of a character is one of ASCII. -/
theorem eq_singleton_of_mem_utf8EncodeChar {c : Char} {b : UInt8} (hb : b ∈ String.utf8EncodeChar c)
    (h : b.toNat < 0x80) : String.utf8EncodeChar c = [b] ∧ b.toNat = c.toNat := by
  have hval : c.val.toNat = c.toNat := rfl
  by_cases hascii : c.toNat < 0x80
  · rw [utf8EncodeChar_ascii hascii] at hb ⊢
    obtain rfl := List.mem_singleton.1 hb
    exact ⟨rfl, by rw [UInt8.toNat_ofNat']; omega⟩
  · refine absurd h (Nat.not_lt.2 ?_)
    have hlong : ¬ c.val.toNat ≤ 127 := fun h => hascii (Nat.lt_succ_of_le h)
    simp only [String.utf8EncodeChar, if_neg hlong] at hb
    split at hb
    · simp only [List.mem_cons, List.not_mem_nil, or_false] at hb
      obtain rfl | rfl := hb <;> rw [UInt8.toNat_ofNat'] <;> omega
    · split at hb
      · simp only [List.mem_cons, List.not_mem_nil, or_false] at hb
        obtain rfl | rfl | rfl := hb <;> rw [UInt8.toNat_ofNat'] <;> omega
      · simp only [List.mem_cons, List.not_mem_nil, or_false] at hb
        obtain rfl | rfl | rfl | rfl := hb <;> rw [UInt8.toNat_ofNat'] <;> omega

/-- A byte of ASCII at the end of a text is its last character. -/
theorem last_of_utf8Bytes {text : String} {bytes : List UInt8} {b : UInt8}
    (h : utf8Bytes text = bytes ++ [b]) (hb : b.toNat < 0x80) :
    ∃ front, text.toList = front ++ [Char.ofNat b.toNat] := by
  rw [← String.ofList_toList (s := text), utf8Bytes_ofList] at h
  obtain hchars | ⟨front, c, hchars⟩ := text.toList.eq_nil_or_concat
  · rw [hchars] at h
    exact absurd h.symm (by simp)
  · refine ⟨front, ?_⟩
    rw [List.concat_eq_append] at hchars
    rw [hchars, List.flatMap_append, List.flatMap_singleton] at h
    have hlast : (String.utf8EncodeChar c).getLast? = some b := by
      rw [← List.getLast?_append_of_ne_nil _ String.utf8EncodeChar_ne_nil, h, List.getLast?_concat]
    obtain ⟨-, hnat⟩ := eq_singleton_of_mem_utf8EncodeChar (List.mem_of_getLast? hlast) hb
    rw [hchars, hnat, Char.ofNat_toNat]

/-! ## Percent encoding -/

theorem decodeBytes_cons_of_ne {b : UInt8} (hb : b ≠ 37) (rest : List UInt8) :
    decodeBytes (b :: rest) = b :: decodeBytes rest := by
  rw [decodeBytes]
  rintro a b rest rfl -
  exact hb rfl

theorem decodeBytes_eq_self {bytes : List UInt8} (h : 37 ∉ bytes) : decodeBytes bytes = bytes := by
  induction bytes with
  | nil => rw [decodeBytes]
  | cons b rest ih =>
    rw [decodeBytes_cons_of_ne fun hb => h (hb ▸ List.mem_cons_self),
      ih fun hrest => h (List.mem_cons_of_mem _ hrest)]

/-- Without two digits after it a `%` stands for itself. -/
theorem decodeBytes_percent {a b : UInt8} {rest : List UInt8}
    (h : ∀ x y, hexByte? a = some x → hexByte? b = some y → False) :
    decodeBytes (37 :: a :: b :: rest) = 37 :: decodeBytes (a :: b :: rest) := by
  rw [decodeBytes]
  split
  · next ha hb => exact (h _ _ ha hb).elim
  · rfl

/-- A byte that is no hexadecimal digit is no part of an escape. -/
theorem decodeBytes_append_singleton {b : UInt8} (hdigit : hexByte? b = none) (bytes : List UInt8) :
    decodeBytes (bytes ++ [b]) = decodeBytes bytes ++ [b] := by
  induction bytes using decodeBytes.induct with
  | case1 => simp [decodeBytes]
  | case2 a a' rest x y hx hy ih =>
    simp only [List.cons_append, decodeBytes, hx, hy, ih]
  | case3 a a' rest h ih =>
    rw [List.cons_append, List.cons_append, List.cons_append, decodeBytes_percent h,
      decodeBytes_percent h, List.cons_append, ← ih]
    rfl
  | case4 c rest h ih =>
    have hcons : decodeBytes (c :: (rest ++ [b])) = c :: decodeBytes (rest ++ [b]) := by
      by_cases hc : c = 37
      · -- There is at most one byte after the `%`, so the new one is not a digit of its escape.
        subst hc
        match rest, h with
        | [], _ => simp [decodeBytes]
        | [d], _ => exact decodeBytes_percent (by simp [hdigit])
        | d :: d' :: rest, h => exact (h _ _ _ rfl rfl).elim
      · exact decodeBytes_cons_of_ne hc _
    rw [List.cons_append, hcons, ih, decodeBytes.eq_3 _ _ h, List.cons_append]

/-- A text of ASCII without a `%` stands for itself. -/
theorem decodeText?_eq_self {cs : List Char} (h : ∀ c ∈ cs, c.toNat < 0x80 ∧ c ≠ '%') :
    decodeText? (String.ofList cs) = some (String.ofList cs) := by
  have hpercent : 37 ∉ utf8Bytes (String.ofList cs) := by
    rw [utf8Bytes_ofList]
    intro hmem
    obtain ⟨c, hc, hb⟩ := List.mem_flatMap.1 hmem
    obtain ⟨-, hnat⟩ := eq_singleton_of_mem_utf8EncodeChar hb (by decide)
    exact (h c hc).2 (Char.ext (UInt32.toNat_inj.1 hnat.symm))
  rw [decodeText?, percentDecode, decodeBytes_eq_self hpercent]
  exact ofUtf8Bytes?_eq_some.2 rfl

/-- A control at the end stays there. -/
theorem decodeText?_last {cs : List Char} {c : Char} (hc : c.toNat ≤ 0x20) {text : String}
    (h : decodeText? (String.ofList (cs ++ [c])) = some text) : ∃ front, text.toList = front ++ [c] := by
  have hnat : (UInt8.ofNat c.toNat).toNat = c.toNat := by
    rw [UInt8.toNat_ofNat']
    omega
  have hdigit : hexByte? (UInt8.ofNat c.toNat) = none := by
    simp only [hexByte?, hnat]
    grind
  have hbytes : utf8Bytes text = decodeBytes (cs.flatMap String.utf8EncodeChar) ++
      [UInt8.ofNat c.toNat] := by
    rw [decodeText?, percentDecode, utf8Bytes_ofList, List.flatMap_append, List.flatMap_singleton,
      utf8EncodeChar_ascii (by omega), decodeBytes_append_singleton hdigit] at h
    exact ofUtf8Bytes?_eq_some.1 h
  obtain ⟨front, htext⟩ := last_of_utf8Bytes hbytes (by omega)
  rw [hnat, Char.ofNat_toNat] at htext
  exact ⟨front, htext⟩

end ContentSync.Text
