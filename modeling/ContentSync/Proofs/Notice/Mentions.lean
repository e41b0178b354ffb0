import ContentSync.Notice.Event
import Mathlib.Data.Bool.AllAny
import Mathlib.Data.List.Infix
import Mathlib.Data.String.Basic

/-!
# The kinds an event speaks of

Whether an event concerns a kind is found out by looking for the name of the kind in the description.
The description has a line for each report, which begins with the name of its kind, but it also quotes
what others have written: versions, and what a failure has to say. So a kind is found if there is a
report of it, and also if a quoted text happens to hold its name. The closing remark of an epoch that
had nothing to do holds the name of game data, although there is no report at all.

* `Text.infix_separated`, `Text.infix_append_of_head` — where a word can stand in a text that is put
  together;
* `Failure.quoted`, `KindReport.versions`, `Epoch.quoted` — the texts that a description quotes;
* `Event.infix_kindLine`, `Failure.infix_message` — what is fixed in a line adds no name to those of
  its kind and of the quoted texts;
* `Event.mentions_iff_reported_or_quoted` — what an event speaks of;
* `Event.mentions_unreported` — events that speak of kinds of which there is no report.
-/

set_option autoImplicit false

namespace ContentSync

/-! ## Words in a text -/

namespace Text

variable {word a b : List Char} {c : Char}

theorem occursIn_iff_infix {text : List Char} : occursIn word text = true ↔ word <:+: text := by
  induction text with
  | nil => simp [occursIn]
  | cons c rest ih =>
    rw [occursIn, Bool.or_eq_true, ih, List.isPrefixOf_iff_prefix, List.infix_cons_iff]

/-- A word does not go past a character that it does not hold. -/
theorem infix_separated (hword : word ≠ []) (hc : c ∉ word) :
    word <:+: a ++ c :: b ↔ word <:+: a ∨ word <:+: b := by
  rw [List.infix_append_iff]
  constructor
  · rintro (ha | hb | ⟨front, back, rfl, hfront, hback⟩)
    · exact .inl ha
    · obtain hstart | hb := List.infix_cons_iff.1 hb
      · obtain ⟨d, rest, rfl⟩ := List.exists_cons_of_ne_nil hword
        obtain ⟨rfl, -⟩ := List.cons_prefix_cons.1 hstart
        exact absurd List.mem_cons_self hc
      · exact .inr hb
    · cases back with
      | nil => exact .inl (by simpa using hfront.isInfix)
      | cons d rest =>
        obtain ⟨rfl, -⟩ := List.cons_prefix_cons.1 hback
        exact absurd (List.mem_append_right _ List.mem_cons_self) hc
  · rintro (ha | hb)
    · exact .inl ha
    · exact .inr (.inl (List.infix_cons hb))

/-- A word does not begin where its first character is missing. -/
theorem infix_append_of_head (hc : c ∉ a) :
    c :: word <:+: a ++ b ↔ c :: word <:+: b := by
  rw [List.infix_append_iff]
  constructor
  · rintro (ha | hb | ⟨front, back, heq, hfront, hback⟩)
    · exact absurd (ha.subset List.mem_cons_self) hc
    · exact hb
    · cases front with
      | nil =>
        rw [List.nil_append] at heq
        exact heq ▸ hback.isInfix
      | cons d rest =>
        obtain ⟨rfl, -⟩ := List.cons.inj heq
        exact absurd (hfront.subset List.mem_cons_self) hc
  · exact fun hb => .inr (.inl hb)

theorem not_infix_of_head (hc : c ∉ a) : ¬ c :: word <:+: a :=
  fun h => hc (h.subset List.mem_cons_self)

/-- A word does not end in a character that is not its last one. -/
theorem infix_append_of_last (hword : word ≠ []) (hlast : word.getLast hword ≠ c) :
    word <:+: a ++ [c] ↔ word <:+: a := by
  rw [List.infix_concat_iff]
  refine ⟨fun h => h.resolve_left fun hend => ?_, .inr⟩
  obtain ⟨front, hfront⟩ := hend
  have hget := congrArg List.getLast? hfront
  rw [List.getLast?_append_of_ne_nil _ hword, List.getLast?_concat, List.getLast?_eq_getLast_of_ne_nil hword] at hget
  exact hlast (Option.some.inj hget)

/-- A word within one line stands in one of the lines. -/
theorem infix_joinLines (hword : word ≠ []) (hline : '\n' ∉ word) (lines : List String) :
    word <:+: (Event.joinLines lines).toList ↔ ∃ line ∈ lines, word <:+: line.toList := by
  induction lines with
  | nil => simp [Event.joinLines, hword]
  | cons line lines ih =>
    by_cases hlines : lines = []
    · subst hlines
      simp [Event.joinLines]
    · have hjoin : (Event.joinLines (line :: lines)).toList =
          line.toList ++ '\n' :: (Event.joinLines lines).toList := by
        rw [Event.joinLines, String.intercalate_cons_of_ne_nil hlines]
        simp [Event.joinLines]
      rw [hjoin, infix_separated hword hline, ih]
      simp

end Text

/-! ## What a description quotes -/

/-- The text of somebody else in the message of a failure. -/
def Failure.quoted : Failure → Option String
  | .timeout detail | .unreachable detail | .malformed detail | .persistence detail
  | .cacheWrite detail | .cacheRead detail | .comparison detail | .config detail => some detail
  | .status _ body => some body
  | .allyCode raw => some raw
  | .inFlight | .cancelled => none

/-- The versions in the line about a kind. -/
def KindReport.versions (r : KindReport) : List Version := r.newVersion :: r.oldVersion.toList

/-- The texts that the description of an epoch quotes. -/
def Epoch.quoted (e : Epoch) : List String :=
  (e.error.bind Failure.quoted).toList ++ e.kinds.flatMap fun r => r.versions.map (·.text)

namespace DataKind

/-- The name of a kind is a word of one line whose first character is a capital that the fixed texts
do not hold, and which does not end in a blank. -/
theorem heading_toList (k : DataKind) :
    ∃ first rest, k.heading.toList = first :: rest ∧ (first = 'G' ∨ first = 'L') := by
  cases k
  · exact ⟨'G', _, rfl, .inl rfl⟩
  · exact ⟨'L', _, rfl, .inr rfl⟩

theorem heading_ne_nil (k : DataKind) : k.heading.toList ≠ [] := by cases k <;> decide

theorem notMem_heading {c : Char} (h : c ∈ ['\n', ':', '-', '>', '(', 'r']) (k : DataKind) :
    c ∉ k.heading.toList := by
  have hall : ∀ c ∈ ['\n', ':', '-', '>', '(', 'r'], c ∉ k.heading.toList :=
    List.all_iff_forall_prop.1 (by cases k <;> decide)
  exact hall c h

theorem heading_infix_heading {k l : DataKind} :
    k.heading.toList <:+: l.heading.toList ↔ l = k := by
  cases k <;> cases l <;> decide

variable {a b : List Char}

/-- A text without the capitals adds no name to what follows it. -/
theorem heading_infix_append (ha : 'G' ∉ a ∧ 'L' ∉ a) (k : DataKind) :
    k.heading.toList <:+: a ++ b ↔ k.heading.toList <:+: b := by
  obtain ⟨first, rest, heq, rfl | rfl⟩ := k.heading_toList
  · rw [heq]
    exact Text.infix_append_of_head ha.1
  · rw [heq]
    exact Text.infix_append_of_head ha.2

theorem not_heading_infix (ha : 'G' ∉ a ∧ 'L' ∉ a) (k : DataKind) : ¬ k.heading.toList <:+: a := by
  obtain ⟨first, rest, heq, rfl | rfl⟩ := k.heading_toList
  · rw [heq]
    exact Text.not_infix_of_head ha.1
  · rw [heq]
    exact Text.not_infix_of_head ha.2

theorem heading_infix_separated {c : Char} (hc : c ∈ ['\n', ':', '-', '>', '(', 'r'])
    (k : DataKind) :
    k.heading.toList <:+: a ++ c :: b ↔ k.heading.toList <:+: a ∨ k.heading.toList <:+: b :=
  Text.infix_separated k.heading_ne_nil (notMem_heading hc k)

/-- Blanks around a text add no name to it. -/
theorem heading_infix_padded (k : DataKind) :
    k.heading.toList <:+: ' ' :: (a ++ [' ']) ↔ k.heading.toList <:+: a := by
  have hfront := heading_infix_append (a := [' ']) (b := a ++ [' ']) (by decide) k
  rw [List.singleton_append] at hfront
  rw [hfront, Text.infix_append_of_last k.heading_ne_nil]
  cases k <;> decide

end DataKind

/-- What a fixed text without the capitals and a quoted text hold. -/
theorem DataKind.heading_infix_quoting {fixed : String} (hfixed : 'G' ∉ fixed.toList ∧ 'L' ∉ fixed.toList)
    (detail : String) (k : DataKind) :
    k.heading.toList <:+: (fixed ++ detail).toList ↔
      ∃ text ∈ some detail, k.heading.toList <:+: text.toList := by
  rw [String.toList_append, heading_infix_append hfixed]
  exact ⟨fun h => ⟨detail, rfl, h⟩, fun ⟨text, htext, h⟩ => Option.some.inj htext ▸ h⟩

/-- **The message of a failure holds the name of a kind** if and only if the text that it quotes
does. -/
theorem Failure.infix_message (f : Failure) (k : DataKind) :
    k.heading.toList <:+: f.message.toList ↔
      ∃ text ∈ f.quoted, k.heading.toList <:+: text.toList := by
  cases f with
  | timeout detail | unreachable detail | malformed detail | persistence detail | cacheWrite detail
  | cacheRead detail | comparison detail | allyCode detail | config detail =>
    exact DataKind.heading_infix_quoting (by decide +kernel) detail k
  | status code body =>
    have hcode (c : Char) (hc : c.isDigit = false) : c ∉ (toString code).toList := by
      intro h
      rw [Nat.toString_eq_repr, Nat.toList_repr] at h
      exact absurd (Nat.isDigit_of_mem_toDigits (by omega) (by omega) h) (by simp [hc])
    refine DataKind.heading_infix_quoting ?_ body k
    simp only [String.toList_append, List.mem_append, not_or]
    exact ⟨⟨⟨by decide +kernel, hcode _ (by decide)⟩, by decide⟩,
      ⟨by decide +kernel, hcode _ (by decide)⟩, by decide⟩
  | inFlight | cancelled =>
    refine iff_of_false (DataKind.not_heading_infix (by decide +kernel) k) ?_
    rintro ⟨text, htext, -⟩
    cases htext

/-- An epoch that had nothing to do was not stopped and has no reports. -/
theorem Epoch.of_verdict_unchanged {e : Epoch} (h : e.verdict = .unchanged) :
    e.error = none ∧ e.kinds = [] := by
  unfold Epoch.verdict Outcome.decide at h
  split at h
  · cases h
  · rename_i hstopped
    simp only [Bool.or_eq_true, not_or, Option.not_isSome_iff_eq_none] at hstopped
    refine ⟨hstopped.1, ?_⟩
    split at h
    · exact List.isEmpty_iff.1 ‹_›
    · split at h
      · cases h
      · split at h
        · cases h
        · split at h <;> cases h

namespace Event

/-- **The line about a kind holds the name of a kind** if and only if it is about that kind or one of
its versions holds the name. -/
theorem infix_kindLine (r : KindReport) (k : DataKind) :
    k.heading.toList <:+: (kindLine r).toList ↔
      r.kind = k ∨ ∃ v ∈ r.versions, k.heading.toList <:+: v.text.toList := by
  have hstate : ¬ k.heading.toList <:+:
      (if r.committed then "committed" else "not committed").toList ++ [')'] := by
    cases r.committed <;> exact DataKind.not_heading_infix (by decide +kernel) k
  have hname (rest : List Char) : k.heading.toList <:+: r.kind.heading.toList ++ ':' :: rest ↔
      r.kind = k ∨ k.heading.toList <:+: rest := by
    rw [DataKind.heading_infix_separated (by decide) k, DataKind.heading_infix_heading]
  by_cases hrestored : r.restored = true
  · -- The old version is the new one.
    have hold : r.oldVersion = some r.newVersion := by simpa [KindReport.restored] using hrestored
    have hline : (kindLine r).toList = r.kind.heading.toList ++ ':' :: ((' ' :: (r.newVersion.text.toList ++ [' ']))
        ++ 'r' :: ("estored after cache expiry (".toList ++
          ((if r.committed then "committed" else "not committed").toList ++ [')']))) := by
      simp [kindLine, hrestored]
    have htail : ¬ k.heading.toList <:+: "estored after cache expiry (".toList ++
        ((if r.committed then "committed" else "not committed").toList ++ [')']) := by
      rw [DataKind.heading_infix_append (by decide +kernel) k]
      exact hstate
    rw [hline, hname, DataKind.heading_infix_separated (by decide) k, DataKind.heading_infix_padded]
    simp only [htail, KindReport.versions, hold, or_false, Option.toList_some, List.mem_cons,
      List.not_mem_nil, or_self, exists_eq_left]
  · have hnone : ¬ k.heading.toList <:+: "none".toList :=
      DataKind.not_heading_infix (by decide +kernel) k
    have hold : (k.heading.toList <:+: (r.oldVersion.elim "none" (·.text)).toList) ↔
        ∃ v ∈ r.oldVersion.toList, k.heading.toList <:+: v.text.toList := by
      cases r.oldVersion with
      | none => simpa using hnone
      | some v => simp
    have hline : (kindLine r).toList = r.kind.heading.toList ++ ':' ::
        ((' ' :: ((r.oldVersion.elim "none" (·.text)).toList ++ [' '])) ++ '-' :: ([] ++ '>' ::
          ((' ' :: (r.newVersion.text.toList ++ [' '])) ++
            '(' :: ((if r.committed then "committed" else "not committed").toList ++ [')'])))) := by
      cases h : r.oldVersion <;> simp [kindLine, hrestored, h]
    have hnil : ¬ k.heading.toList <:+: [] := by simpa using k.heading_ne_nil
    rw [hline, hname, DataKind.heading_infix_separated (by decide) k, DataKind.heading_infix_padded, hold,
      DataKind.heading_infix_separated (by decide) k, DataKind.heading_infix_separated (by decide) k,
      DataKind.heading_infix_padded]
    simp only [hnil, hstate, false_or, KindReport.versions, List.mem_cons, exists_eq_or_imp,
      or_comm]

/-- What the description of an epoch with some outcome holds. -/
theorem infix_description (e : Epoch) (outcome : Outcome) (k : DataKind) :
    k.heading.toList <:+: (joinLines (descriptionLines e outcome)).toList ↔
      (∃ r ∈ e.kinds, r.kind = k) ∨ (outcome = .unchanged ∧ k = .gameData) ∨
        ∃ text ∈ e.quoted, k.heading.toList <:+: text.toList := by
  have hlines : descriptionLines e outcome =
      (e.error.map fun f => "Sync stopped before fetching: " ++ f.message).toList ++
        e.kinds.map kindLine ++
        (if outcome = .unchanged then ["Game data and localization versions match upstream."] else []) := by
    rw [descriptionLines]
    cases e.error <;> rfl
  have herror : (∃ line ∈ (e.error.map fun f => "Sync stopped before fetching: " ++ f.message).toList,
        k.heading.toList <:+: line.toList) ↔
      ∃ text ∈ (e.error.bind Failure.quoted).toList, k.heading.toList <:+: text.toList := by
    cases e.error with
    | none => simp
    | some f =>
      have hfixed : 'G' ∉ "Sync stopped before fetching: ".toList ∧
          'L' ∉ "Sync stopped before fetching: ".toList := by decide +kernel
      simp only [Option.map_some, Option.toList_some, List.mem_singleton, exists_eq_left,
        String.toList_append, DataKind.heading_infix_append hfixed, Failure.infix_message,
        Option.mem_toList, Option.bind_some, Option.mem_def]
  have hkinds : (∃ line ∈ e.kinds.map kindLine, k.heading.toList <:+: line.toList) ↔
      (∃ r ∈ e.kinds, r.kind = k) ∨ ∃ text ∈ e.kinds.flatMap fun r => r.versions.map (·.text),
        k.heading.toList <:+: text.toList := by
    constructor
    · rintro ⟨_, hline, h⟩
      obtain ⟨r, hr, rfl⟩ := List.mem_map.1 hline
      obtain hkind | ⟨v, hv, h⟩ := (infix_kindLine r k).1 h
      · exact .inl ⟨r, hr, hkind⟩
      · exact .inr ⟨v.text, List.mem_flatMap.2 ⟨r, hr, List.mem_map_of_mem hv⟩, h⟩
    · rintro (⟨r, hr, hkind⟩ | ⟨_, htext, h⟩)
      · exact ⟨kindLine r, List.mem_map_of_mem hr, (infix_kindLine r k).2 (.inl hkind)⟩
      · obtain ⟨r, hr, htext⟩ := List.mem_flatMap.1 htext
        obtain ⟨v, hv, rfl⟩ := List.mem_map.1 htext
        exact ⟨kindLine r, List.mem_map_of_mem hr, (infix_kindLine r k).2 (.inr ⟨v, hv, h⟩)⟩
  have hremark : (∃ line ∈ if outcome = .unchanged then
        ["Game data and localization versions match upstream."] else [],
        k.heading.toList <:+: line.toList) ↔ outcome = .unchanged ∧ k = .gameData := by
    have hfixed : k.heading.toList <:+:
        "Game data and localization versions match upstream.".toList ↔ k = .gameData := by
      cases k <;> decide +kernel
    by_cases houtcome : outcome = .unchanged
    · simp only [houtcome, if_true, List.mem_singleton, exists_eq_left, hfixed, true_and]
    · simp [houtcome]
  rw [Text.infix_joinLines k.heading_ne_nil (DataKind.notMem_heading (by decide) k), hlines,
    Epoch.quoted]
  simp only [List.mem_append, or_and_right, exists_or, herror, hkinds, hremark]
  simp only [or_left_comm, or_comm]

/-- **An event speaks of a kind** if there is a report of it, if the epoch had nothing to do and the kind
is game data, or if a quoted text holds the name of the kind, and not otherwise. So it tells truly which
kinds it concerns unless it says too much in one of the last two ways. Of an epoch that had nothing to do
it always does: there are no reports, but it speaks of game data, though not of localization. -/
theorem mentions_iff_reported_or_quoted (e : Epoch) (now : Timestamp) (k : DataKind) :
    let finished := e.finalize now
    ((ofEpoch finished).mentions k = true ↔
      (∃ r ∈ finished.kinds, r.kind = k) ∨ (finished.outcome = some .unchanged ∧ k = .gameData) ∨
        ∃ text ∈ finished.quoted, k.heading.toList <:+: text.toList) ∧
    (((ofEpoch finished).mentions k = true ↔ ∃ r ∈ finished.kinds, r.kind = k) ↔
      (∃ r ∈ finished.kinds, r.kind = k) ∨ ¬ (finished.outcome = some .unchanged ∧ k = .gameData) ∧
        ∀ text ∈ finished.quoted, ¬ k.heading.toList <:+: text.toList) ∧
    (finished.outcome = some .unchanged →
      finished.kinds = [] ∧ ((ofEpoch finished).mentions k = true ↔ k = .gameData)) := by
  intro finished
  have houtcome : finished.outcome.getD .failure = .unchanged ↔ finished.outcome = some .unchanged := by
    simp [finished, Epoch.finalize]
  have hmentions : (ofEpoch finished).mentions k = true ↔
      (∃ r ∈ finished.kinds, r.kind = k) ∨ (finished.outcome = some .unchanged ∧ k = .gameData) ∨
        ∃ text ∈ finished.quoted, k.heading.toList <:+: text.toList := by
    rw [mentions, Text.occursIn_iff_infix, ← houtcome]
    exact infix_description finished _ k
  refine ⟨hmentions, ?_, fun hunchanged => ?_⟩
  · rw [hmentions]
    constructor
    · intro h
      by_cases hreport : ∃ r ∈ finished.kinds, r.kind = k
      · exact .inl hreport
      · exact .inr ⟨fun hremark => hreport (h.1 (.inr (.inl hremark))),
          fun text htext hholds => hreport (h.1 (.inr (.inr ⟨text, htext, hholds⟩)))⟩
    · rintro (hreport | ⟨hremark, hquoted⟩)
      · exact ⟨fun _ => hreport, .inl⟩
      · refine ⟨fun h => h.resolve_right ?_, .inl⟩
        rintro (h | ⟨text, htext, h⟩)
        · exact hremark h
        · exact hquoted text htext h
  · -- Nothing is reported, so nothing is quoted either.
    obtain ⟨hstopped, hkinds⟩ := Epoch.of_verdict_unchanged (Option.some.inj hunchanged)
    have hquoted : finished.quoted = [] := by
      simp [finished, Epoch.quoted, Epoch.finalize, Epoch.collect, hstopped, hkinds]
    refine ⟨hkinds, ?_⟩
    rw [hmentions, hquoted]
    simp [finished, Epoch.finalize, Epoch.collect, hkinds, Option.some.inj hunchanged]

/-- An epoch without reports, whose event speaks of game data. -/
theorem mentions_iff_reported_or_quoted_idle :
    let noon : Timestamp := ⟨1718000000, 0⟩
    let idle := (Epoch.start .scheduled noon).finalize noon
    idle.outcome = some .unchanged ∧ idle.kinds = [] ∧
      (ofEpoch idle).mentions .gameData = true ∧ (ofEpoch idle).mentions .localization = false := by
  intro noon idle
  have houtcome : idle.outcome = some .unchanged := by decide
  obtain ⟨-, -, hgame⟩ := mentions_iff_reported_or_quoted (.start .scheduled noon) noon .gameData
  obtain ⟨-, -, hlocalization⟩ :=
    mentions_iff_reported_or_quoted (.start .scheduled noon) noon .localization
  refine ⟨houtcome, (hgame houtcome).1, (hgame houtcome).2.2 rfl, ?_⟩
  exact Bool.eq_false_iff.2 fun h => absurd ((hlocalization houtcome).2.1 h) (by decide)

/-- **An event may speak of a kind of which there is no report**: of game data when there was nothing to
do, and of localization when a version of game data is named after it. -/
theorem mentions_unreported :
    let noon : Timestamp := ⟨1718000000, 0⟩
    let idle := (Epoch.start .scheduled noon).finalize noon
    let named := ({ Epoch.start .scheduled noon with
      kinds := [.selected .gameData none ⟨"Localization-7"⟩] } : Epoch).finalize noon
    ((ofEpoch idle).mentions .gameData = true ∧ (ofEpoch idle).mentions .localization = false ∧
      ¬ ∃ r ∈ idle.kinds, r.kind = .gameData) ∧
    (ofEpoch named).mentions .localization = true ∧ ¬ ∃ r ∈ named.kinds, r.kind = .localization := by
  decide +kernel

end Event

end ContentSync
