import ContentSync.Content.Target

/-!
# Cache keys tell targets and versions apart

A version is any text, so a key may hold the separator or a word that looks like another key. Keys
still never collide: the word in front tells the namespace, and behind a version of game data
stands a code of one digit.

* `key_inj` — the key of a target for a version belongs to no other target and no other version;
* `key_ne_ofPlayer` — and to no player;
* `CacheKey.kind?` / `kind?_key` — the word in front tells the kind.
-/

set_option autoImplicit false

namespace ContentSync

namespace Segment

/-- The digit by which a segment is requested. -/
def digit : Segment → Char
  | full => '0'
  | equipment => '1'
  | abilities => '2'
  | units => '3'
  | campaigns => '4'

theorem toList_code (s : Segment) : (toString s.code).toList = [s.digit] := by
  cases s <;> rfl

theorem digit_inj {s r : Segment} (h : s.digit = r.digit) : s = r := by
  cases s <;> cases r <;> first | rfl | exact absurd h (by decide)

end Segment

namespace CacheKey

theorem toList_ofGameData (v : Version) (s : Segment) :
    (ofGameData v s).text.toList = "gamedata:".toList ++ (v.text.toList ++ [':', s.digit]) := by
  simp only [ofGameData, String.toList_append, Segment.toList_code, List.append_assoc]
  rfl

theorem toList_ofLocalization (v : Version) :
    (ofLocalization v).text.toList = "localization:".toList ++ v.text.toList := by
  simp [ofLocalization]

theorem ofGameData_inj {v w : Version} {s r : Segment} (h : ofGameData v s = ofGameData w r) :
    v = w ∧ s = r := by
  have hl : v.text.toList ++ [':', s.digit] = w.text.toList ++ [':', r.digit] := by
    refine (List.append_right_inj "gamedata:".toList).1 ?_
    rw [← toList_ofGameData, ← toList_ofGameData, h]
  obtain ⟨hv, hs⟩ := List.append_inj' hl rfl
  simp only [List.cons.injEq, true_and, and_true] at hs
  refine ⟨?_, Segment.digit_inj hs⟩
  cases v; cases w
  simpa using String.toList_injective hv

theorem ofLocalization_inj {v w : Version} (h : ofLocalization v = ofLocalization w) : v = w := by
  have hl : v.text.toList = w.text.toList := by
    refine (List.append_right_inj "localization:".toList).1 ?_
    rw [← toList_ofLocalization, ← toList_ofLocalization, h]
  cases v; cases w
  simpa using String.toList_injective hl

theorem ofGameData_ne_ofLocalization (v w : Version) (s : Segment) :
    ofGameData v s ≠ ofLocalization w := by
  intro h
  have hl := congrArg (fun k => k.text.toList.head?) h
  simp [toList_ofGameData, toList_ofLocalization] at hl

/-- The kind to which an entry belongs by the word in front of its key. -/
def kind? (k : CacheKey) : Option DataKind :=
  let word := k.text.toList.takeWhile (· ≠ ':')
  if word = "gamedata".toList then some .gameData
  else if word = "localization".toList then some .localization
  else none

theorem toList_ofPlayer (a : AllyCode) :
    (ofPlayer a).text.toList = "player:".toList ++ a.text.toList := by
  simp [ofPlayer]

theorem ofPlayer_inj {a b : AllyCode} (h : ofPlayer a = ofPlayer b) : a = b := by
  have hl : a.text.toList = b.text.toList := by
    refine (List.append_right_inj "player:".toList).1 ?_
    rw [← toList_ofPlayer, ← toList_ofPlayer, h]
  cases a; cases b
  simpa using String.toList_injective hl

end CacheKey

namespace FetchTarget

/-- **Keys are injective** on targets and versions. -/
theorem key_inj {t u : FetchTarget} {v w : Version} (h : t.key v = u.key w) : t = u ∧ v = w := by
  cases t with
  | gameData s =>
    cases u with
    | gameData r =>
      obtain ⟨hv, hs⟩ := CacheKey.ofGameData_inj h
      exact ⟨by rw [hs], hv⟩
    | localization => exact absurd h (CacheKey.ofGameData_ne_ofLocalization v w s)
  | localization =>
    cases u with
    | gameData r => exact absurd h.symm (CacheKey.ofGameData_ne_ofLocalization w v r)
    | localization => exact ⟨rfl, CacheKey.ofLocalization_inj h⟩

/-- **The word in front tells the kind** of the target. -/
@[simp] theorem kind?_key (t : FetchTarget) (v : Version) : (t.key v).kind? = some t.kind := by
  cases t with
  | gameData s =>
    have hword : (CacheKey.ofGameData v s).text.toList.takeWhile (· ≠ ':') = "gamedata".toList := by
      rw [CacheKey.toList_ofGameData]
      rfl
    simp only [key, CacheKey.kind?, hword, if_true, kind]
  | localization =>
    have hword : (CacheKey.ofLocalization v).text.toList.takeWhile (· ≠ ':') =
        "localization".toList ++ [] := by
      rw [CacheKey.toList_ofLocalization]
      rfl
    have hne : "localization".toList ++ [] ≠ "gamedata".toList := by decide
    simp only [key, CacheKey.kind?, hword, if_neg hne]
    rfl

theorem key_ne_ofPlayer (t : FetchTarget) (v : Version) (a : AllyCode) :
    t.key v ≠ .ofPlayer a := by
  intro h
  have hl := congrArg (fun k => k.text.toList.head?) h
  cases t <;>
    simp [key, CacheKey.toList_ofGameData, CacheKey.toList_ofLocalization,
      CacheKey.toList_ofPlayer] at hl

end FetchTarget

end ContentSync
