import ContentSync.Notice.Embed
import ContentSync.Proofs.Diff.Grouping
import Mathlib.Data.Nat.Digits.Defs
import Mathlib.Data.List.Forall2

/-!
# What a message shows

A message is within the limits of the chat service whatever the event is, and whoever reads it can tell
what was cut: a text ends with an ellipsis, and a list of ids with the number of those left out.

* `Embed.Shown` — how a text is shown within a limit;
* `Embed.listing`, `Embed.Listed` — how ids are shown within a limit;
* `Embed.bulletLines_listed` — the lines written so far always leave room for the one that counts;
* `Event.InKeyOrder`, `Event.ofEpoch_inKeyOrder` — collections are in the order of their names;
* `Embed.Layout` — which blocks are shown, and which are dropped;
* `Embed.message_within_limits` — what the message of any event shows.
-/

set_option autoImplicit false

namespace ContentSync

namespace Embed

/-! ## Texts -/

/-- A text is shown as it is, or as its beginning and an ellipsis. -/
structure Shown (limit : Nat) (text shown : String) : Prop where
  within : shown.length ≤ limit
  whole : text.length ≤ limit → shown = text
  cut : limit < text.length → shown.toList = text.toList.take (limit - 1) ++ ['…']

theorem truncateChars_of_le {cs : List Char} {limit : Nat} (h : cs.length ≤ limit) :
    truncateChars cs limit = cs := if_pos h

theorem truncateChars_of_lt {cs : List Char} {limit : Nat} (h : limit < cs.length) :
    truncateChars cs limit = cs.take (limit - 1) ++ ['…'] := if_neg (by omega)

theorem truncate_shown (text : String) {limit : Nat} (hlimit : 0 < limit) :
    Shown limit text (truncate text limit) := by
  have hlength : text.toList.length = text.length := String.length_toList
  have hlist : (truncate text limit).toList = truncateChars text.toList limit := String.toList_ofList
  refine ⟨?_, ?_, ?_⟩
  · rw [← String.length_toList, hlist]
    by_cases h : text.toList.length ≤ limit
    · rw [truncateChars_of_le h]
      exact h
    · rw [truncateChars_of_lt (by omega)]
      simp only [List.length_append, List.length_take, List.length_singleton]
      omega
  · intro h
    rw [truncate, truncateChars_of_le (by omega), String.ofList_toList]
  · intro h
    rw [hlist, truncateChars_of_lt (by omega)]

/-! ## Lists of ids -/

/-- The line that counts the ids left out. -/
def countLine (left : Nat) : String := "… and " ++ toString left ++ " more"

/-- A line for each id, and one that counts those left out, if any are. -/
def listing (ids : List String) (left : Nat) : String :=
  String.intercalate "\n" (ids.map (fun id => "- " ++ id) ++ if left = 0 then [] else [countLine left])

/-- Of the ids the first ones are shown and the others counted. Another one is left out only because with
it there would be no room for the line that counts. -/
structure Listed (limit : Nat) (ids : List String) (value : String) : Prop where
  within : value.length ≤ limit
  lines : ∃ shown ≤ ids.length, value = listing (ids.take shown) (ids.length - shown) ∧
    (shown < ids.length → limit <
      (listing (ids.take (shown + 1)) (if shown + 1 < ids.length then ids.length - shown else 0)).length)

theorem footer_eq (left : Nat) : footer left = '\n' :: (countLine left).toList := by
  simp [footer, countLine]

/-- A larger number has no fewer digits. -/
theorem length_toDigits_mono {a b : Nat} (h : a ≤ b) :
    (Nat.toDigits 10 a).length ≤ (Nat.toDigits 10 b).length := by
  induction b using Nat.strongRecOn generalizing a with
  | ind b ih =>
    by_cases hb : b < 10
    · rw [Nat.toDigits_of_lt_base hb, Nat.toDigits_of_lt_base (show a < 10 by omega)]
      simp
    · rw [Nat.toDigits_of_base_le (by omega) (show 10 ≤ b by omega), List.length_append,
        List.length_singleton]
      by_cases ha : a < 10
      · rw [Nat.toDigits_of_lt_base ha, List.length_singleton]
        omega
      · have hrest := ih (b / 10) (by omega) (Nat.div_le_div_right (c := 10) h)
        rw [Nat.toDigits_of_base_le (by omega) (show 10 ≤ a by omega), List.length_append,
          List.length_singleton]
        omega

theorem length_footer (left : Nat) : (footer left).length = (Nat.toDigits 10 left).length + 12 := by
  simp [footer_eq, countLine, Nat.toString_eq_repr, Nat.toList_repr]

theorem length_footer_mono {a b : Nat} (h : a ≤ b) : (footer a).length ≤ (footer b).length := by
  rw [length_footer, length_footer]
  have hdigits := length_toDigits_mono h
  omega

/-- The number of ids in a list that can be in memory has few digits. -/
theorem length_footer_le {left : Nat} (h : left < 2 ^ 64) : (footer left).length ≤ 32 := by
  have hdigits : (Nat.toDigits 10 left).length ≤ 20 := Nat.toDigits_length 10 left 20 (by omega) (by omega)
  rw [length_footer]
  omega

theorem listing_zero (ids : List String) :
    listing ids 0 = String.intercalate "\n" (ids.map fun id => "- " ++ id) := by
  simp [listing]

theorem listing_nil_of_pos {left : Nat} (hleft : 0 < left) : listing [] left = countLine left := by
  simp [listing, Nat.ne_of_gt hleft]

/-- The lines of ids begin with a dash. -/
theorem listing_head {ids : List String} (hids : ids ≠ []) :
    ∃ cs, (listing ids 0).toList = '-' :: cs := by
  obtain ⟨id, rest, rfl⟩ := List.exists_cons_of_ne_nil hids
  rw [listing_zero, List.map_cons]
  by_cases hrest : rest.map (fun id => "- " ++ id) = []
  · rw [hrest, String.intercalate_singleton]
    exact ⟨' ' :: id.toList, by simp⟩
  · rw [String.intercalate_cons_of_ne_nil hrest]
    exact ⟨_, by simp only [String.toList_append]; rfl⟩

theorem listing_isEmpty (ids : List String) : (listing ids 0).toList.isEmpty = ids.isEmpty := by
  by_cases hids : ids = []
  · subst hids
    simp [listing]
  · obtain ⟨cs, hcs⟩ := listing_head hids
    rw [hcs, List.isEmpty_eq_false_iff.2 hids]
    rfl

/-- The lines of ids, when there is one more. -/
theorem listing_concat (ids : List String) (id : String) :
    (listing (ids ++ [id]) 0).toList =
      (listing ids 0).toList ++ (if (listing ids 0).toList.isEmpty then [] else ['\n']) ++ bullet id := by
  rw [listing_isEmpty]
  by_cases hids : ids = []
  · subst hids
    simp [listing, bullet]
  · have hmap : ids.map (fun id => "- " ++ id) ≠ [] := by simpa using hids
    rw [listing_zero, listing_zero, List.map_append, List.map_singleton,
      String.intercalate_append_of_ne_nil hmap (by simp), String.intercalate_singleton,
      List.isEmpty_eq_false_iff.2 hids]
    simp [bullet]

/-- The line that counts comes last. -/
theorem listing_of_pos {ids : List String} {left : Nat} (hleft : 0 < left) :
    (listing ids left).toList = ((listing ids 0).toList ++ footer left).dropWhile (· == '\n') := by
  by_cases hids : ids = []
  · subst hids
    rw [listing_nil_of_pos hleft]
    simp [listing, footer_eq, countLine]
  · have hmap : ids.map (fun id => "- " ++ id) ≠ [] := by simpa using hids
    obtain ⟨cs, hcs⟩ := listing_head hids
    have hdrop : ((listing ids 0).toList ++ footer left).dropWhile (· == '\n') =
        (listing ids 0).toList ++ footer left := by
      rw [hcs, List.cons_append]
      exact List.dropWhile_cons_of_neg (by decide)
    rw [hdrop, listing, if_neg (by omega), String.intercalate_append_of_ne_nil hmap (by simp),
      String.intercalate_singleton, ← listing_zero, footer_eq]
    simp

theorem length_listing_le {ids : List String} {left : Nat} (hleft : 0 < left) :
    (listing ids left).length ≤ (listing ids 0).length + (footer left).length := by
  rw [← String.length_toList, ← String.length_toList, listing_of_pos hleft, ← List.length_append]
  exact (List.dropWhile_sublist _).length_le

/-- Counting takes its line and a line break, if other lines stand before it. -/
theorem length_listing_of_ne_nil {ids : List String} {left : Nat} (hids : ids ≠ []) (hleft : 0 < left) :
    (listing ids left).length = (listing ids 0).length + (footer left).length := by
  obtain ⟨cs, hcs⟩ := listing_head hids
  rw [← String.length_toList, ← String.length_toList, listing_of_pos hleft, hcs, List.cons_append,
    List.dropWhile_cons_of_neg (by decide), ← List.cons_append, List.length_append]

/-- What is written so far leaves room to count the rest. -/
def Room (limit : Nat) (written rest : List String) : Prop :=
  (listing written 0).length + (if rest.isEmpty then 0 else (footer rest.length).length) ≤ limit

/-- **The line that counts always fits.** As long as there is room to count the rest, the first of the
rest are added, and the others counted by a line that is not cut. -/
theorem bulletLines_listed {limit : Nat} {written rest : List String} (room : Room limit written rest) :
    ∃ more ≤ rest.length,
      bulletLines limit (listing written 0).toList rest =
        (listing (written ++ rest.take more) (rest.length - more)).toList ∧
      (listing (written ++ rest.take more) (rest.length - more)).length ≤ limit ∧
      (more < rest.length → limit <
        (listing (written ++ rest.take (more + 1))
          (if more + 1 < rest.length then rest.length - more else 0)).length) := by
  induction rest generalizing written with
  | nil =>
    refine ⟨0, Nat.le_refl _, ?_, ?_, nofun⟩
    · simp [bulletLines]
    · simpa [Room] using room
  | cons id rest ih =>
    have hnext := listing_concat written id
    have hlength : (listing (written ++ [id]) 0).toList.length = (listing (written ++ [id]) 0).length :=
      String.length_toList
    have hcount : (listing written 0).length + (footer (rest.length + 1)).length ≤ limit := by
      simpa [Room] using room
    rw [bulletLines, ← hnext, hlength]
    by_cases hfull : limit < (listing (written ++ [id]) 0).length +
        (if rest.isEmpty then 0 else (footer (rest.length + 1)).length)
    · -- The line does not fit, so the rest is counted, this id included.
      have hpos : 0 < rest.length + 1 := by omega
      have hwithin : (listing written (rest.length + 1)).length ≤ _ := length_listing_le hpos
      refine ⟨0, Nat.zero_le _, ?_, ?_, fun _ => ?_⟩
      · rw [if_pos hfull, ← listing_of_pos hpos, truncateChars_of_le]
        · simp
        · rw [String.length_toList]
          omega
      · simpa using Nat.le_trans hwithin hcount
      · by_cases hrest : rest = []
        · subst hrest
          simpa using hfull
        · have hmore : 0 < rest.length := List.length_pos_of_ne_nil hrest
          rw [if_neg (by simpa using hrest), ← length_listing_of_ne_nil (by simp) hpos] at hfull
          simpa [hmore] using hfull
    · -- The line fits, and there is still room to count one id less.
      have room' : Room limit (written ++ [id]) rest := by
        rw [Room]
        by_cases hrest : rest.isEmpty = true
        · rw [if_pos hrest] at hfull ⊢
          omega
        · have hmono := length_footer_mono (Nat.le_add_right rest.length 1)
          rw [if_neg hrest] at hfull ⊢
          omega
      obtain ⟨more, hle, heq, hwithin, htight⟩ := ih room'
      refine ⟨more + 1, Nat.succ_le_succ hle, ?_, ?_, fun hlt => ?_⟩
      · rw [if_neg hfull, heq]
        simp
      · simpa using hwithin
      · simpa using htight (by simpa using hlt)

/-- Ids are shown within any limit under which their number can be written. -/
theorem bulletList_listed {limit : Nat} {ids : List String} (hroom : (footer ids.length).length ≤ limit) :
    Listed limit ids (bulletList ids limit) := by
  have room : Room limit [] ids := by
    rw [Room]
    split
    · simp [listing]
    · simpa [listing] using hroom
  obtain ⟨shown, hle, heq, hwithin, htight⟩ := bulletLines_listed room
  have hvalue : bulletList ids limit = listing (ids.take shown) (ids.length - shown) := by
    have hnil : (listing [] 0).toList = [] := by simp [listing]
    rw [hnil] at heq
    rw [bulletList, heq, String.ofList_toList, List.nil_append]
  refine ⟨?_, shown, hle, hvalue, ?_⟩
  · rw [hvalue]
    simpa using hwithin
  · simpa using htight

/-- A list may be cut that would fit, because there is no room to count before its last line. -/
example : bulletList ["CALKESTIS", "REY"] 17 = "… and 2 more" := by decide

example : (listing ["CALKESTIS", "REY"] 0).length = 17 := by decide

end Embed

/-! ## Collections in order -/

namespace Event

/-- Collections are in the order of their names, each of them once. -/
def InKeyOrder (e : Event) : Prop := e.changedItems.Pairwise fun a b => a.1 < b.1

end Event

/-- The event of any epoch has its collections in order. -/
theorem Event.ofEpoch_inKeyOrder (epoch : Epoch) : (Event.ofEpoch epoch).InKeyOrder :=
  Changes.byCollection_inOrder (epoch.changes.added.union epoch.changes.changed).increasing

namespace Embed

/-! ## Blocks -/

/-- How a block of the event is shown. -/
structure ShowsField (f : EventField) (shown : EmbedField) : Prop where
  name : Shown 256 f.name shown.name
  value : Shown 1024 f.value shown.value

/-- How the ids of a collection are shown. -/
structure ShowsGroup (g : String × List String) (shown : EmbedField) : Prop where
  name : Shown 256 ("New or changed " ++ g.1) shown.name
  value : Listed 1024 g.2 shown.value

/-- There are at most twenty-five blocks. The first ones are those of the event, then come those of its
collections, of which the last are dropped if there are too many. -/
structure Layout (e : Event) (own groups : List EmbedField) : Prop where
  count : (own ++ groups).length ≤ 25
  blocks : List.Forall₂ ShowsField (e.fields.take 25) own
  collections : ∃ kept dropped, e.changedItems = kept ++ dropped ∧ List.Forall₂ ShowsGroup kept groups ∧
    kept.Pairwise (fun a b => a.1 < b.1) ∧ (∀ a ∈ kept, ∀ b ∈ dropped, a.1 < b.1) ∧
    (dropped ≠ [] → (own ++ groups).length = 25)

theorem ofField_shows (f : EventField) : ShowsField f (ofField f) :=
  ⟨truncate_shown f.name (by decide), truncate_shown f.value (by decide)⟩

theorem ofGroup_shows {g : String × List String} (hmemory : g.2.length < 2 ^ 64) :
    ShowsGroup g (ofGroup g) := by
  have hfooter := length_footer_le hmemory
  have hlimit : fieldValueLimit = 1024 := rfl
  exact ⟨truncate_shown _ (by decide), bulletList_listed (by omega)⟩

/-- **Which blocks are shown.** -/
theorem ofEvent_layout {e : Event} (horder : e.InKeyOrder)
    (hmemory : ∀ g ∈ e.changedItems, g.2.length < 2 ^ 64) :
    ∃ own groups, (ofEvent e).fields = own ++ groups ∧ Layout e own groups := by
  have hfields : (ofEvent e).fields = (e.fields.take 25).map ofField ++
      (e.changedItems.take (25 - e.fields.length)).map ofGroup := by
    show (e.fields.map ofField ++ e.changedItems.map ofGroup).take 25 = _
    rw [List.take_append, List.length_map, List.map_take, List.map_take]
  have hsplit := List.take_append_drop (25 - e.fields.length) e.changedItems
  have hpairs : (e.changedItems.take (25 - e.fields.length) ++
      e.changedItems.drop (25 - e.fields.length)).Pairwise fun a b => a.1 < b.1 := by
    rw [hsplit]
    exact horder
  obtain ⟨hkept, -, hbefore⟩ := List.pairwise_append.1 hpairs
  refine ⟨_, _, hfields, ?_, ?_, _, _, hsplit.symm, ?_, hkept, hbefore, ?_⟩
  · simp only [List.length_append, List.length_map, List.length_take]
    omega
  · rw [List.forall₂_map_right_iff]
    exact List.forall₂_same.2 fun f _ => ofField_shows f
  · rw [List.forall₂_map_right_iff]
    exact List.forall₂_same.2 fun g hg => ofGroup_shows (hmemory g (List.mem_of_mem_take hg))
  · intro hdropped
    have hlong : 25 - e.fields.length < e.changedItems.length := by
      by_contra hshort
      exact hdropped (List.drop_eq_nil_of_le (by omega))
    simp only [List.length_append, List.length_map, List.length_take]
    omega

/-! ## The message -/

theorem fieldJson_members (f : EmbedField) :
    (fieldJson f).field? "name" = some (.string f.name) ∧
      (fieldJson f).field? "value" = some (.string f.value) := by
  simp [fieldJson, Json.ofMembers, Json.field?, Json.lookup_insertMember_self,
    Json.lookup_insertMember_of_ne]

/-- What is sent is the embed; without blocks there is no list of them. -/
theorem json_members (shown : Embed) :
    shown.json.field? "title" = some (.string shown.title) ∧
      shown.json.field? "description" = some (.string shown.description) ∧
      shown.json.field? "fields" =
        if shown.fields = [] then none else some (.array (shown.fields.map fieldJson)) := by
  cases hfields : shown.fields <;>
    simp [json, hfields, Json.ofMembers, Json.field?, Json.lookup_insertMember_self,
      Json.lookup_insertMember_of_ne]

/-- **The message of any event is within the limits, and what is cut is told.** It has one embed. Title,
description and the texts of the event's blocks are shown as they are if they are short enough, and
otherwise cut with an ellipsis. The first twenty-five blocks of the event are shown in order, and then as
many collections as there is room for, in the order of their names. Of each the first ids are listed, and
the others counted by a line that is always complete, as a list in memory has fewer than `2 ^ 64`. -/
theorem message_within_limits (e : Event) (horder : e.InKeyOrder)
    (hmemory : ∀ g ∈ e.changedItems, g.2.length < 2 ^ 64) :
    ∃ embed title description own groups,
      (ofEvent e).message.field? "embeds" = some (.array [embed]) ∧
      embed.field? "title" = some (.string title) ∧ Shown 256 e.title title ∧
      embed.field? "description" = some (.string description) ∧
        Shown 4096 e.description description ∧
      embed.field? "fields" =
        (if own ++ groups = [] then none else some (.array ((own ++ groups).map fieldJson))) ∧
      (∀ f ∈ own ++ groups, (fieldJson f).field? "name" = some (.string f.name) ∧
        (fieldJson f).field? "value" = some (.string f.value)) ∧
      Layout e own groups := by
  obtain ⟨own, groups, hfields, layout⟩ := ofEvent_layout horder hmemory
  obtain ⟨htitle, hdescription, hblocks⟩ := json_members (ofEvent e)
  rw [hfields] at hblocks
  exact ⟨(ofEvent e).json, (ofEvent e).title, (ofEvent e).description, own, groups, rfl,
    htitle, truncate_shown e.title (by decide), hdescription, truncate_shown e.description (by decide),
    hblocks, fun f _ => fieldJson_members f, layout⟩

/-- Twenty-four blocks and two collections, one of them large. -/
def crowded : Event where
  title := "Content updated"
  description := "Game data: 1 -> 2 (committed)"
  severity := .success
  outcome := .success
  changedItems := [("skill", ["BASIC"]), ("units", (List.range 500).map fun n => toString n)]
  fields := List.replicate 24 ⟨"Removed", "1"⟩
  time := ⟨0, 0⟩

/-- A message with one block too many: twenty-five are shown, the last of them of the first
collection. -/
theorem message_within_limits_crowded :
    crowded.InKeyOrder ∧ (∀ g ∈ crowded.changedItems, g.2.length < 2 ^ 64) ∧
      ∃ own group, Layout crowded own [group] ∧ ShowsGroup ("skill", ["BASIC"]) group := by
  have horder : crowded.InKeyOrder := by
    refine List.pairwise_cons.2 ⟨fun g hg => ?_, List.pairwise_singleton _ _⟩
    obtain rfl := List.mem_singleton.1 hg
    decide
  have hmemory : ∀ g ∈ crowded.changedItems, g.2.length < 2 ^ 64 := by
    intro g hg
    rcases List.mem_cons.1 hg with rfl | hg
    · decide
    · obtain rfl := List.mem_singleton.1 hg
      simp
  obtain ⟨-, -, -, own, groups, -, -, -, -, -, -, -, layout⟩ := message_within_limits crowded horder hmemory
  obtain ⟨kept, dropped, hsplit, hgroups, -, -, hfull⟩ := layout.collections
  have hown : own.length = 24 := by simpa [crowded] using layout.blocks.length_eq.symm
  have hcount := layout.count
  have hlengths : kept.length = groups.length := hgroups.length_eq
  have htotal : kept.length + dropped.length = 2 := by
    rw [← List.length_append, ← hsplit]
    rfl
  rw [List.length_append] at hcount hfull
  have hone : groups.length = 1 := by
    have hdropped : dropped ≠ [] := List.ne_nil_of_length_pos (by omega)
    have htwentyfive := hfull hdropped
    omega
  obtain ⟨group, rfl⟩ := List.length_eq_one_iff.1 hone
  obtain ⟨g, rfl⟩ := List.length_eq_one_iff.1 (hlengths.trans hone)
  obtain ⟨rfl, -⟩ := List.cons.inj hsplit
  obtain ⟨hshows, -⟩ := List.forall₂_cons.1 hgroups
  exact ⟨horder, hmemory, own, group, layout, hshows⟩

end Embed

end ContentSync
