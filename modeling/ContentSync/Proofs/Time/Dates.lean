import ContentSync.Time.Timestamp
import Mathlib.Data.Nat.Digits.Defs
import Mathlib.Data.String.Basic
import Mathlib.Order.Basic

/-!
# Dates in the order of their texts

A date of a year of four digits is written with the year first and the day last, each with a fixed number
of digits. So the texts of dates are in the order of the dates.

* `Timestamp.padded_lt` — numbers with leading zeros are in the order of the numbers;
* `Timestamp.Date.Before` — one date is before another;
* `Timestamp.Date.Plain` — the dates that are written without a sign;
* `Timestamp.dateText_lt_iff` — their texts are in the order of the dates.
-/

set_option autoImplicit false

namespace ContentSync

namespace Timestamp

/-! ## Numbers with leading zeros -/

variable {a b c d : List Char} {m n width : Nat}

/-- Texts of one length that differ are in order, whatever follows. -/
theorem append_lt_append (h : a < b) (hlength : a.length = b.length) : a ++ c < b ++ d := by
  induction a generalizing b with
  | nil =>
    rw [List.length_eq_zero_iff.1 hlength.symm] at h
    exact absurd h (List.not_lt_nil _)
  | cons x a ih =>
    cases b with
    | nil => cases hlength
    | cons y b =>
      obtain hlt | ⟨rfl, hrest⟩ := List.cons_lt_cons_iff.1 h
      · exact List.cons_lt_cons_iff.2 (.inl hlt)
      · exact List.cons_lt_cons_iff.2 (.inr ⟨rfl, ih hrest (Nat.succ.inj hlength)⟩)

theorem append_lt_append_left_iff : a ++ b < a ++ c ↔ b < c := by
  induction a with
  | nil => rfl
  | cons x a ih => simp [ih]

theorem digitChar_lt (h : m < n) (hn : n < 10) : m.digitChar < n.digitChar := by
  have hall : ∀ n < 10, ∀ m < n, m.digitChar < n.digitChar := by decide
  exact hall n hn m h

/-- The last digit stands behind the others. -/
theorem toList_padded_succ (hwidth : 0 < width) (n : Nat) :
    (padded (width + 1) n).toList = (padded width (n / 10)).toList ++ [(n % 10).digitChar] := by
  simp only [padded, String.toList_ofList, Nat.toString_eq_repr, Nat.toList_repr]
  by_cases hn : n < 10
  · obtain ⟨k, rfl⟩ := Nat.exists_eq_add_of_lt hwidth
    rw [Nat.toDigits_of_lt_base hn, Nat.div_eq_of_lt hn, Nat.mod_eq_of_lt hn]
    simp [List.replicate_succ']
  · rw [Nat.toDigits_of_base_le (by omega) (show 10 ≤ n by omega), List.length_append,
      List.length_singleton, Nat.add_sub_add_right, List.append_assoc]

theorem toList_padded_one (hn : n < 10) : (padded 1 n).toList = [n.digitChar] := by
  simp [padded, Nat.toString_eq_repr, Nat.toList_repr, Nat.toDigits_of_lt_base hn]

theorem length_padded (hwidth : 0 < width) (hn : n < 10 ^ width) :
    (padded width n).toList.length = width := by
  induction width, hwidth using Nat.le_induction generalizing n with
  | base => rw [toList_padded_one (by simpa using hn), List.length_singleton]
  | succ width hwidth ih =>
    have hrest : n / 10 < 10 ^ width := Nat.div_lt_of_lt_mul (by rwa [Nat.pow_succ'] at hn)
    rw [toList_padded_succ hwidth, List.length_append, ih hrest, List.length_singleton]

/-- **Numbers with leading zeros are in the order of the numbers.** -/
theorem padded_lt (hwidth : 0 < width) (h : m < n) (hn : n < 10 ^ width) :
    (padded width m).toList < (padded width n).toList := by
  induction width, hwidth using Nat.le_induction generalizing m n with
  | base =>
    have hn : n < 10 := by simpa using hn
    rw [toList_padded_one hn, toList_padded_one (h.trans hn)]
    exact List.cons_lt_cons_iff.2 (.inl (digitChar_lt h hn))
  | succ width hwidth ih =>
    have hrest : n / 10 < 10 ^ width := Nat.div_lt_of_lt_mul (by rwa [Nat.pow_succ'] at hn)
    rw [toList_padded_succ hwidth, toList_padded_succ hwidth]
    obtain hlt | heq := Nat.lt_or_eq_of_le (Nat.div_le_div_right (c := 10) h.le)
    · exact append_lt_append (ih hlt hrest)
        ((length_padded hwidth (hlt.trans hrest)).trans (length_padded hwidth hrest).symm)
    · rw [heq]
      exact append_lt_append_left_iff.2
        (List.cons_lt_cons_iff.2 (.inl (digitChar_lt (by omega) (Nat.mod_lt n (by omega)))))

/-! ## Dates -/

namespace Date

/-- A date whose year is written with four digits. -/
structure Plain (d : Date) : Prop where
  year_nonneg : 0 ≤ d.year
  year_le : d.year ≤ 9999
  month_pos : 1 ≤ d.month
  month_le : d.month ≤ 12
  day_pos : 1 ≤ d.day
  day_le : d.day ≤ 31

/-- One date is before another. -/
def Before (d d' : Date) : Prop :=
  d.year < d'.year ∨ d.year = d'.year ∧ (d.month < d'.month ∨ d.month = d'.month ∧ d.day < d'.day)

theorem before_or_eq_or_before (d d' : Date) : d.Before d' ∨ d = d' ∨ d'.Before d := by
  obtain ⟨year, month, day⟩ := d
  obtain ⟨year', month', day'⟩ := d'
  simp only [Before, mk.injEq]
  omega

end Date

variable {d d' : Date}

theorem toList_dateText (h : d.Plain) :
    (dateText d).toList = (padded 4 d.year.toNat).toList ++
      '-' :: ((padded 2 d.month).toList ++ '-' :: (padded 2 d.day).toList) := by
  rw [dateText, yearText, if_pos ⟨h.year_nonneg, h.year_le⟩]
  simp

/-- Each part of a date has its own number of digits. -/
theorem Date.Plain.lengths (h : d.Plain) : (padded 4 d.year.toNat).toList.length = 4 ∧
    (padded 2 d.month).toList.length = 2 ∧ (padded 2 d.day).toList.length = 2 := by
  obtain ⟨-, hyear, -, hmonth, -, hday⟩ := h
  exact ⟨length_padded (by omega) (by omega), length_padded (by omega) (by omega),
    length_padded (by omega) (by omega)⟩

theorem length_dateText (h : d.Plain) : (dateText d).toList.length = 10 := by
  obtain ⟨hyear, hmonth, hday⟩ := h.lengths
  simp [toList_dateText h, hyear, hmonth, hday]

theorem dateText_lt (hd : d.Plain) (hd' : d'.Plain) (h : d.Before d') : dateText d < dateText d' := by
  have hyear := hd.year_nonneg
  have hyear' := hd'.year_le
  have hmonth' := hd'.month_le
  have hday' := hd'.day_le
  rw [String.lt_iff_toList_lt, toList_dateText hd, toList_dateText hd']
  obtain hlt | ⟨heq, hlt | ⟨heq', hlt⟩⟩ := h
  · exact append_lt_append (padded_lt (by omega) (by omega) (by omega))
      (hd.lengths.1.trans hd'.lengths.1.symm)
  · rw [heq]
    refine append_lt_append_left_iff.2 (List.cons_lt_cons_iff.2 (.inr ⟨rfl, ?_⟩))
    exact append_lt_append (padded_lt (by omega) hlt (by omega))
      (hd.lengths.2.1.trans hd'.lengths.2.1.symm)
  · rw [heq, heq']
    refine append_lt_append_left_iff.2 (List.cons_lt_cons_iff.2 (.inr ⟨rfl, ?_⟩))
    refine append_lt_append_left_iff.2 (List.cons_lt_cons_iff.2 (.inr ⟨rfl, ?_⟩))
    exact padded_lt (by omega) hlt (by omega)

/-- **The texts of dates are in the order of the dates.** -/
theorem dateText_lt_iff (hd : d.Plain) (hd' : d'.Plain) : dateText d < dateText d' ↔ d.Before d' := by
  refine ⟨fun h => ?_, dateText_lt hd hd'⟩
  obtain hbefore | rfl | hafter := d.before_or_eq_or_before d'
  · exact hbefore
  · exact absurd h (lt_irrefl _)
  · exact absurd h (dateText_lt hd' hd hafter).asymm

end Timestamp

end ContentSync
