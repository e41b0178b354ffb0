import ContentSync.Proofs.Content.Keys
import ContentSync.Proofs.Engine.World
import ContentSync.Proofs.Engine.WritingPath
import ContentSync.Store.KeyValue

/-!
# Keys are kept apart

Cache entries of all versions and players lie side by side, on a server even beside the committed
versions. The word before the first colon of a key tells what it is about, whatever colons the version
behind it has, so removing the entries of one version leaves everything else where it is.

* `CacheKey.word` — the word in front, which no two namespaces share;
* `KeyValue.value?_executeAll_delete` — a server forgets the keys that it is told to, and no other;
* `World.stored?_after_expiring` — of the entries in memory, only those of the version are removed;
* `never_collide` — keys are equal only if they are about the same.
-/

set_option autoImplicit false

namespace ContentSync

/-! ## The word in front -/

namespace CacheKey

/-- What comes before the first colon. -/
def word (text : String) : List Char := text.toList.takeWhile (· ≠ ':')

variable {text : String}

theorem ne_of_word_ne {other : String} (h : word text ≠ word other) : text ≠ other :=
  fun heq => h (congrArg word heq)

@[simp] theorem word_ofGameData (v : Version) (s : Segment) :
    word (ofGameData v s).text = "gamedata".toList := by
  rw [word, toList_ofGameData]
  rfl

@[simp] theorem word_ofLocalization (v : Version) :
    word (ofLocalization v).text = "localization".toList := by
  rw [word, toList_ofLocalization]
  rfl

@[simp] theorem word_ofPlayer (a : AllyCode) : word (ofPlayer a).text = "player".toList := by
  rw [word, toList_ofPlayer]
  rfl

@[simp] theorem word_committed (kind : DataKind) : word (RemoteVersions.key kind) = "meta".toList := by
  cases kind <;> rfl

theorem word_key_mem (t : FetchTarget) (v : Version) :
    word (t.key v).text ∈ ["gamedata".toList, "localization".toList] := by
  cases t <;> simp [FetchTarget.key]

end CacheKey

/-! ## On a server -/

namespace KeyValue

/-- Executes one command after the other. -/
def executeAll (s : KeyValue) (now : Nat) (commands : List Command) : KeyValue :=
  commands.foldl (fun s command => (s.execute now command).2) s

/-- **Deleting keys leaves all others.** -/
theorem value?_executeAll_delete {keys : List String} {other : String} (h : other ∉ keys)
    (s : KeyValue) (now later : Nat) :
    (s.executeAll now (keys.map .delete)).value? later other = s.value? later other := by
  induction keys generalizing s with
  | nil => rfl
  | cons key keys ih =>
    obtain ⟨hne, hrest⟩ := not_or.1 (mt List.mem_cons.2 h)
    exact (ih hrest _).trans (value?_erase_of_ne s later hne)

end KeyValue

namespace Engine

open Program

variable {p : SyncPolicy} {v : Version} {targets : List FetchTarget} {h : List Exchange}
  {q : Program Unit} {w : World} {e : Exchange} {key other : CacheKey} {limit : Duration}

/-! ## In memory -/

/-- What the answer to a removal leaves behind, if it came at all. -/
theorem World.after_invalidate (hrequest : e.request = .call (.invalidate key) limit) :
    (w.after e).versions = w.versions ∧
      ((w.after e).cache = w.cache ∨ (w.after e).cache = w.cache.invalidate key) := by
  obtain ⟨r, answer⟩ := e
  obtain rfl : r = .call (.invalidate key) limit := hrequest
  match answer with
  | none | some (.error _) => exact ⟨rfl, .inl rfl⟩
  | some (.ok _) => exact ⟨rfl, .inr rfl⟩

/-- What an answered removal keeps is kept by all the removals of a version. -/
theorem World.foldl_after_expiring {α : Type} {f : World → α} (path : (expire p v targets).Path h q)
    (hstep : ∀ w e, ∀ t ∈ targets, e.request = .call (.invalidate (t.key v)) p.ioTimeout →
      f (w.after e) = f w) : f (h.foldl World.after w) = f w := by
  have hall : ∀ e ∈ h, ∃ t ∈ targets, e.request = .call (.invalidate (t.key v)) p.ioTimeout := by
    intro e he
    obtain ⟨_, hasks⟩ := path.asks_of_mem he
    exact asks_expire hasks
  clear path
  induction h generalizing w with
  | nil => rfl
  | cons e h ih =>
    obtain ⟨t, ht, hrequest⟩ := hall e List.mem_cons_self
    exact (ih fun e he => hall e (List.mem_cons_of_mem _ he)).trans (hstep w e t ht hrequest)

theorem World.versions_after_expiring (path : (expire p v targets).Path h q) :
    (h.foldl World.after w).versions = w.versions :=
  World.foldl_after_expiring path fun _ _ _ _ hrequest => (World.after_invalidate hrequest).1

/-- **Only entries of the version are removed.** -/
theorem World.stored?_after_expiring (path : (expire p v targets).Path h q)
    (hother : ∀ t ∈ targets, other ≠ t.key v) :
    (h.foldl World.after w).cache.stored? other = w.cache.stored? other := by
  refine World.foldl_after_expiring (f := fun w => w.cache.stored? other) path ?_
  intro w e t ht hrequest
  obtain ⟨-, hsame | herased⟩ := World.after_invalidate (w := w) hrequest
  · rw [hsame]
  · rw [herased]
    exact MemoryCache.stored?_erase_of_ne w.cache (hother t ht)

/-! ## All keys -/

/-- The keys of a version that stays, of players and of committed versions are none of those that are
removed. -/
theorem text_not_mem_of_ne {u : FetchTarget} {kept : Version} (hne : kept ≠ v) :
    (u.key kept).text ∉ targets.map fun t => (t.key v).text := by
  intro hmem
  obtain ⟨t, -, htext⟩ := List.mem_map.1 hmem
  have hkey : t.key v = u.key kept := congrArg CacheKey.mk htext
  exact hne (FetchTarget.key_inj hkey).2.symm

theorem text_not_mem_of_word {text : String}
    (hword : CacheKey.word text ∉ ["gamedata".toList, "localization".toList]) :
    text ∉ targets.map fun t => (t.key v).text := by
  intro hmem
  obtain ⟨t, -, htext⟩ := List.mem_map.1 hmem
  exact hword (htext ▸ CacheKey.word_key_mem t v)

/-- **Keys never collide.** Whatever text the versions are, two keys of game data are equal only if
version and segment are, two keys of localization only if the versions are, two keys of players only if
their codes are; keys of different namespaces are different, and none of them is a key of the committed
versions on a server. So a target and a version have a key to themselves. While the entries of one version
are being removed, whatever is answered, the entries of all other versions and of players stay as they
are, and so do the committed versions; a server that deletes the keys of one version keeps the values of
all the others. -/
theorem never_collide :
    (∀ v v' s s', CacheKey.ofGameData v s = .ofGameData v' s' ↔ v = v' ∧ s = s') ∧
    (∀ v v', CacheKey.ofLocalization v = .ofLocalization v' ↔ v = v') ∧
    (∀ a b, CacheKey.ofPlayer a = .ofPlayer b ↔ a = b) ∧
    (∀ v v' s a, CacheKey.ofGameData v s ≠ .ofLocalization v' ∧
      CacheKey.ofGameData v s ≠ .ofPlayer a ∧ CacheKey.ofLocalization v' ≠ .ofPlayer a) ∧
    (∀ kind v s a, RemoteVersions.key kind ≠ (CacheKey.ofGameData v s).text ∧
      RemoteVersions.key kind ≠ (CacheKey.ofLocalization v).text ∧
      RemoteVersions.key kind ≠ (CacheKey.ofPlayer a).text) ∧
    (∀ (t u : FetchTarget) v v', t.key v = u.key v' ↔ t = u ∧ v = v') ∧
    (∀ p v targets h q, (expire p v targets).Path h q → ∀ w : World,
      (h.foldl World.after w).versions = w.versions ∧
      (∀ (u : FetchTarget) kept, kept ≠ v →
        (h.foldl World.after w).cache.stored? (u.key kept) = w.cache.stored? (u.key kept)) ∧
      ∀ a, (h.foldl World.after w).cache.stored? (.ofPlayer a) = w.cache.stored? (.ofPlayer a)) ∧
    (∀ v (targets : List FetchTarget) (server : KeyValue) now later,
      let left := server.executeAll now (targets.map fun t => RemoteCache.invalidate (t.key v))
      (∀ (u : FetchTarget) kept, kept ≠ v →
        left.value? later (u.key kept).text = server.value? later (u.key kept).text) ∧
      (∀ a, left.value? later (CacheKey.ofPlayer a).text =
        server.value? later (CacheKey.ofPlayer a).text) ∧
      ∀ kind, left.value? later (RemoteVersions.key kind) =
        server.value? later (RemoteVersions.key kind)) := by
  refine ⟨?_, ?_, ?_, ?_, ?_, ?_, ?_, ?_⟩
  · intro v v' s s'
    exact ⟨CacheKey.ofGameData_inj, fun ⟨hv, hs⟩ => by rw [hv, hs]⟩
  · intro v v'
    exact ⟨CacheKey.ofLocalization_inj, congrArg _⟩
  · intro a b
    exact ⟨CacheKey.ofPlayer_inj, congrArg _⟩
  · intro v v' s a
    exact ⟨CacheKey.ofGameData_ne_ofLocalization v v' s,
      FetchTarget.key_ne_ofPlayer (.gameData s) v a, FetchTarget.key_ne_ofPlayer .localization v' a⟩
  · intro kind v s a
    refine ⟨?_, ?_, ?_⟩ <;> apply CacheKey.ne_of_word_ne
    · rw [CacheKey.word_committed, CacheKey.word_ofGameData]
      decide
    · rw [CacheKey.word_committed, CacheKey.word_ofLocalization]
      decide
    · rw [CacheKey.word_committed, CacheKey.word_ofPlayer]
      decide
  · intro t u v v'
    exact ⟨FetchTarget.key_inj, fun ⟨ht, hv⟩ => by rw [ht, hv]⟩
  · intro p v targets h q path w
    refine ⟨?_, ?_, ?_⟩
    · exact World.versions_after_expiring path
    · intro u kept hne
      exact World.stored?_after_expiring path fun t _ hkey => hne (FetchTarget.key_inj hkey).2
    · intro a
      exact World.stored?_after_expiring path fun t _ hkey => FetchTarget.key_ne_ofPlayer t v a hkey.symm
  · intro v targets server now later
    have hcommands : (targets.map fun t => RemoteCache.invalidate (t.key v)) =
        (targets.map fun t => (t.key v).text).map .delete := by
      rw [List.map_map]
      rfl
    dsimp only
    rw [hcommands]
    refine ⟨?_, ?_, ?_⟩
    · intro u kept hne
      exact KeyValue.value?_executeAll_delete (text_not_mem_of_ne hne) server now later
    · intro a
      refine KeyValue.value?_executeAll_delete (text_not_mem_of_word ?_) server now later
      rw [CacheKey.word_ofPlayer]
      decide
    · intro kind
      refine KeyValue.value?_executeAll_delete (text_not_mem_of_word ?_) server now later
      rw [CacheKey.word_committed]
      decide

/-- Stores with entries of two versions, of which one looks like the start of a key of the other. -/
def lookalikes : World where
  now := 0
  cache := (MemoryCache.empty.write 0 (.ofGameData ⟨"7"⟩ .full) (.string "seven") (.seconds 60)).write 0
    (.ofGameData ⟨"7:0"⟩ .full) (.string "seven zero") (.seconds 60)
  versions := .cold
  log := []

/-- The entry of version `7` is removed, and that of version `7:0` is still there. -/
theorem never_collide_lookalikes :
    (CacheKey.ofGameData ⟨"7:0"⟩ .full).text = (CacheKey.ofGameData ⟨"7"⟩ .full).text ++ ":0" ∧
    ∃ h q, (expire SyncPolicy.default ⟨"7"⟩ [.gameData .full]).Path h q ∧ (⟨"7:0"⟩ : Version) ≠ ⟨"7"⟩ ∧
      (h.foldl World.after lookalikes).cache.live? 0 (.ofGameData ⟨"7"⟩ .full) = none ∧
      (h.foldl World.after lookalikes).cache.live? 0 (.ofGameData ⟨"7:0"⟩ .full) =
        some (.string "seven zero") := by
  have hne : (⟨"7:0"⟩ : Version) ≠ ⟨"7"⟩ := by decide
  have path : (expire SyncPolicy.default ⟨"7"⟩ [.gameData .full]).Path
      [⟨.call (.invalidate (.ofGameData ⟨"7"⟩ .full)) SyncPolicy.default.ioTimeout, some (.ok ())⟩] (pure ()) :=
    .along _ (.here _)
  obtain ⟨-, -, -, -, -, -, hexpire, -⟩ := never_collide
  obtain ⟨-, hkept, -⟩ := hexpire _ _ _ _ _ path lookalikes
  refine ⟨by decide, _, _, path, hne, MemoryCache.live?_erase_self _ _ _, ?_⟩
  have hstored := hkept (.gameData .full) _ hne
  simp only [FetchTarget.key] at hstored
  rw [MemoryCache.live?, hstored]
  rfl

end Engine

end ContentSync
