import ContentSync.Json.Printer
import ContentSync.Json.Written
import Mathlib.Data.List.Basic

/-!
# The spelling of JSON values

The text without blanks and the text with a line for every item differ in their blanks only, so what
holds of a text in any layout holds of both.

* `Layout`, `Json.spelled` — where blanks stand, and the text with them;
* `Json.toList_compact`, `Json.toList_pretty` — the two texts that are written.
-/

set_option autoImplicit false

namespace ContentSync

open Written

/-! ## Layouts -/

/-- Where blanks stand in a text. -/
structure Layout where
  /-- In front of an item or a member, and in front of the end of a container, at a depth. -/
  line : Nat → List Char
  /-- Behind the colon of a member. -/
  gap : List Char

namespace Layout

/-- No blanks at all. -/
def dense : Layout := ⟨fun _ => [], []⟩

/-- A line for every item and member. -/
def wide : Layout := ⟨fun depth => (Json.newline depth).toList, [' ']⟩

/-- Nothing but blanks. -/
def AllBlank (cs : List Char) : Prop := ∀ c ∈ cs, isBlank c = true

/-- There are only blanks where blanks may stand. -/
structure Lawful (l : Layout) : Prop where
  line : ∀ depth, AllBlank (l.line depth)
  gap : AllBlank l.gap

theorem allBlank_nil : AllBlank [] := nofun

theorem lawful_dense : dense.Lawful := ⟨fun _ => allBlank_nil, allBlank_nil⟩

theorem toList_newline (depth : Nat) :
    (Json.newline depth).toList = '\n' :: List.replicate (2 * depth) ' ' := by
  simp [Json.newline]

theorem lawful_wide : wide.Lawful := by
  refine ⟨fun depth c hc => ?_, fun c hc => ?_⟩
  · simp only [wide, toList_newline, List.mem_cons, List.mem_replicate] at hc
    obtain rfl | ⟨-, rfl⟩ := hc <;> rfl
  · rw [List.mem_singleton.1 hc]
    rfl

end Layout

namespace Json

/-- The characters of a text in quotes. -/
def quoted (text : String) : List Char := '"' :: (text.toList.flatMap escape ++ ['"'])

theorem toList_quote (text : String) : (quote text).toList = quoted text := by
  simp [quote, quoted]

mutual

/-- The characters of a value in a layout, at a depth. -/
def spelled (l : Layout) (depth : Nat) : Json → List Char
  | .null => ['n', 'u', 'l', 'l']
  | .bool true => ['t', 'r', 'u', 'e']
  | .bool false => ['f', 'a', 'l', 's', 'e']
  | .number n => n.text.toList
  | .string s => quoted s
  | .array [] => ['[', ']']
  | .array (v :: rest) =>
    '[' :: (l.line (depth + 1) ++ (spelled l (depth + 1) v ++ spelledItems l depth rest))
  | .object [] => ['\x7b', '\x7d']
  | .object ((k, v) :: rest) =>
    '\x7b' :: (l.line (depth + 1) ++ (quoted k ++ ':' :: (l.gap ++
      (spelled l (depth + 1) v ++ spelledMembers l depth rest))))

/-- What follows an item of an array at a depth, its end included. -/
def spelledItems (l : Layout) (depth : Nat) : List Json → List Char
  | [] => l.line depth ++ [']']
  | v :: rest =>
    ',' :: (l.line (depth + 1) ++ (spelled l (depth + 1) v ++ spelledItems l depth rest))

/-- What follows a member of an object at a depth, its end included. -/
def spelledMembers (l : Layout) (depth : Nat) : List (String × Json) → List Char
  | [] => l.line depth ++ ['\x7d']
  | (k, v) :: rest =>
    ',' :: (l.line (depth + 1) ++ (quoted k ++ ':' :: (l.gap ++
      (spelled l (depth + 1) v ++ spelledMembers l depth rest))))

end

/-! ## The texts that are written -/

theorem toList_compactItems {items : List Json} {depth : Nat}
    (ih : ∀ v ∈ items, ∀ depth, (compact v).toList = spelled .dense depth v) :
    (compactItems items).toList ++ [']'] = spelledItems .dense depth items := by
  induction items with
  | nil => rfl
  | cons v rest ihrest =>
    obtain ⟨hv, hrest⟩ := List.forall_mem_cons.1 ih
    simp only [compactItems, spelledItems, String.toList_append, hv (depth + 1), List.append_assoc,
      ihrest hrest]
    rfl

theorem toList_compactMembers {members : List (String × Json)} {depth : Nat}
    (ih : ∀ m ∈ members, ∀ depth, (compact m.2).toList = spelled .dense depth m.2) :
    (compactMembers members).toList ++ ['\x7d'] = spelledMembers .dense depth members := by
  induction members with
  | nil => rfl
  | cons m rest ihrest =>
    obtain ⟨k, v⟩ := m
    obtain ⟨hv, hrest⟩ := List.forall_mem_cons.1 ih
    simp only [compactMembers, spelledMembers, String.toList_append, toList_quote, hv (depth + 1),
      List.append_assoc, ihrest hrest]
    rfl

/-- **The text without blanks.** -/
theorem toList_compact (v : Json) (depth : Nat) : v.compact.toList = v.spelled .dense depth := by
  induction v using induct generalizing depth with
  | null => rfl
  | bool b => cases b <;> rfl
  | number n => simp only [compact, spelled]
  | string s => simp only [compact, spelled, toList_quote]
  | array items ih =>
    cases items with
    | nil => rfl
    | cons v rest =>
      obtain ⟨hv, hrest⟩ := List.forall_mem_cons.1 ih
      simp only [compact, spelled, String.toList_append, hv (depth + 1), List.append_assoc]
      rw [← toList_compactItems hrest]
      rfl
  | object members ih =>
    cases members with
    | nil => rfl
    | cons m rest =>
      obtain ⟨k, v⟩ := m
      obtain ⟨hv, hrest⟩ := List.forall_mem_cons.1 ih
      simp only [compact, spelled, String.toList_append, toList_quote, hv (depth + 1),
        List.append_assoc]
      rw [← toList_compactMembers hrest]
      rfl

theorem toList_prettyItems {items : List Json} {depth : Nat}
    (ih : ∀ v ∈ items, ∀ depth, (prettyAt depth v).toList = spelled .wide depth v) :
    (prettyItems (depth + 1) items).toList ++ ((newline depth).toList ++ [']']) =
      spelledItems .wide depth items := by
  induction items with
  | nil => rfl
  | cons v rest ihrest =>
    obtain ⟨hv, hrest⟩ := List.forall_mem_cons.1 ih
    simp only [prettyItems, spelledItems, String.toList_append, hv (depth + 1), List.append_assoc,
      ihrest hrest]
    rfl

theorem toList_prettyMembers {members : List (String × Json)} {depth : Nat}
    (ih : ∀ m ∈ members, ∀ depth, (prettyAt depth m.2).toList = spelled .wide depth m.2) :
    (prettyMembers (depth + 1) members).toList ++ ((newline depth).toList ++ ['\x7d']) =
      spelledMembers .wide depth members := by
  induction members with
  | nil => rfl
  | cons m rest ihrest =>
    obtain ⟨k, v⟩ := m
    obtain ⟨hv, hrest⟩ := List.forall_mem_cons.1 ih
    simp only [prettyMembers, spelledMembers, String.toList_append, toList_quote, hv (depth + 1),
      List.append_assoc, ihrest hrest]
    rfl

theorem toList_prettyAt (v : Json) (depth : Nat) :
    (v.prettyAt depth).toList = v.spelled .wide depth := by
  induction v using induct generalizing depth with
  | null =>
    rw [prettyAt, spelled]
    rfl
  | bool b =>
    cases b <;> rw [prettyAt, spelled] <;> rfl
  | number n => simp only [prettyAt, spelled]
  | string s => simp only [prettyAt, spelled, toList_quote]
  | array items ih =>
    cases items with
    | nil =>
      rw [prettyAt, spelled]
      rfl
    | cons v rest =>
      obtain ⟨hv, hrest⟩ := List.forall_mem_cons.1 ih
      simp only [prettyAt, spelled, String.toList_append, hv (depth + 1), List.append_assoc]
      rw [← toList_prettyItems hrest]
      rfl
  | object members ih =>
    cases members with
    | nil =>
      rw [prettyAt, spelled]
      rfl
    | cons m rest =>
      obtain ⟨k, v⟩ := m
      obtain ⟨hv, hrest⟩ := List.forall_mem_cons.1 ih
      simp only [prettyAt, spelled, String.toList_append, toList_quote, hv (depth + 1),
        List.append_assoc]
      rw [← toList_prettyMembers hrest]
      rfl

/-- **The text with a line for every item.** -/
theorem toList_pretty (v : Json) : v.pretty.toList = v.spelled .wide 0 := toList_prettyAt v 0

end Json

end ContentSync
