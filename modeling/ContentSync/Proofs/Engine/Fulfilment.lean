import ContentSync.Proofs.Engine.Fate
import ContentSync.Proofs.Engine.Recovery

/-!
# Every fate can be met

Whatever is settled about the calls of an epoch, and whatever the stores hold, there is an epoch in
which it happens: a fate never leads an epoch into a place where it cannot go on.

* `Fate.reply` — the answer that a fate and the stores give to the next request;
* `Fate.Governs.goes_on` — what is answered so is governed by the fate;
* `Fate.exists_fated` — an epoch that is answered so comes to its end;
* `Fate.steady` / `Fated.of_play` — epochs that can be played and meet a simple fate.
-/

set_option autoImplicit false

namespace ContentSync

namespace Engine

open Program

variable {p : SyncPolicy} {trigger : Trigger} {fate : Fate} {t : List Moment} {s : Situation}
  {start w : World} {worker : Worker} {e : Exchange}

/-! ## Histories that grow -/

@[simp] theorem answers_append (t u : List Moment) : answers (t ++ u) = answers t ++ answers u :=
  List.filterMap_append

theorem metadataEndings_append (t u : List Moment) :
    metadataEndings (t ++ u) = metadataEndings t ++ metadataEndings u := by
  simp [metadataEndings]

theorem fetchEndings_append (target : FetchTarget) (t u : List Moment) :
    fetchEndings target (t ++ u) = fetchEndings target t ++ fetchEndings target u := by
  simp [fetchEndings]

/-- Where the next ending is as it should be, all of them are. -/
theorem forall_getElem?_append {α : Type} {l k : List α} {expected : Nat → α}
    (hl : ∀ (n : Nat) (a : α), l[n]? = some a → a = expected n)
    (hk : k = [] ∨ k = [expected l.length]) :
    ∀ (n : Nat) (a : α), (l ++ k)[n]? = some a → a = expected n := by
  intro n a ha
  by_cases hn : n < l.length
  · rw [List.getElem?_append_left hn] at ha
    exact hl n a ha
  · obtain rfl | rfl := hk
    · rw [List.append_nil] at ha
      exact hl n a ha
    · obtain ⟨hlt, heq⟩ := List.getElem?_eq_some_iff.1 ha
      rw [List.length_append, List.length_singleton] at hlt
      obtain rfl : n = l.length := by omega
      simpa using heq.symm

/-! ## The next answer -/

/-- The answer that a fate and the stores give to a request. -/
def Fate.reply (fate : Fate) (t : List Moment) (w : World) : (r : Request) → r.Answer
  | .publish _ | .remember _ | .compute => ()
  | .isCancelled | .pause _ => false
  | .clock => ⟨0, 0⟩
  | .announce _ => true
  | .wait _ => .error .cancelled
  | .call c _ => (fate.store c).map (·.map fun _ => w.serving ⟨⟨""⟩, ⟨""⟩⟩ c)
  | .attempt .metadata _ => .ofAnswer (fate.metadata (metadataEndings t).length)
  | .attempt (.fetch target _ _) _ => .ofAnswer (fate.fetch target (fetchEndings target t).length)
  | .attempt _ _ => .overdue

theorem Ending.ofAnswer_ne_cancelled {α : Type} (answer : Option (Except Failure α)) :
    Ending.ofAnswer answer ≠ .cancelled := by
  cases answer <;> exact nofun

/-- Nobody is told of a cancellation. -/
theorem Fate.reply_admits (fate : Fate) (t : List Moment) (w : World) (r : Request) :
    r.Admits false (fate.reply t w r) := by
  have hending : ∀ {c : Call} {limit : Duration} {ending : Ending c.Answer},
      ending ≠ .cancelled → (Request.attempt c limit).Admits false ending := by
    intro c limit ending hne
    cases ending with
    | cancelled => exact absurd rfl hne
    | answered | overdue => trivial
  cases r with
  | attempt c limit =>
    cases c with
    | metadata | fetch => exact hending (Ending.ofAnswer_ne_cancelled _)
    | player | versions | commit | read | exist | write | invalidate => exact hending nofun
  | pause => exact nofun
  | isCancelled => rfl
  | publish | clock | announce | remember | wait | call | compute => trivial

/-- The stores can give the answer. -/
theorem Fate.answers_reply (fate : Fate) (t : List Moment) (w : World) (r : Request) :
    w.Answers ⟨r, fate.reply t w r⟩ := by
  intro c x hb
  generalize ha : fate.reply t w r = a at hb
  cases hb with
  | wait => cases ha
  | call limit =>
    simp only [Fate.reply, Option.map_eq_some_iff] at ha
    obtain ⟨outcome, -, heq⟩ := ha
    cases outcome with
    | error f => cases heq
    | ok =>
      cases heq
      exact w.gives_serving _ c
  | attempt limit =>
    cases c with
    | metadata | fetch | player | commit | write | invalidate => trivial
    | versions | read | exist => cases ha

/-- **What is answered as a fate says is governed by it.** -/
theorem Fate.Governs.answered (hg : fate.Governs t) (worker : Worker) (r : Request) :
    fate.Governs (t ++ [.answered worker ⟨r, fate.reply t w r⟩]) where
  metadata := by
    rw [metadataEndings_append]
    refine forall_getElem?_append hg.metadata ?_
    cases r with
    | attempt c limit => cases c <;> first | exact .inr rfl | exact .inl rfl
    | publish | isCancelled | clock | announce | remember | wait | call | pause | compute =>
      exact .inl rfl
  fetch := by
    intro target
    rw [fetchEndings_append]
    refine forall_getElem?_append (hg.fetch target) ?_
    cases r with
    | attempt c limit =>
      cases c with
      | fetch other v unzip =>
        by_cases hother : other = target
        · subst hother
          exact .inr (by simp [fetchEndings, answers, Exchange.fetchEnding?, Fate.reply])
        · exact .inl (by simp [fetchEndings, answers, Exchange.fetchEnding?, hother])
      | metadata | player | versions | commit | read | exist | write | invalidate => exact .inl rfl
    | publish | isCancelled | clock | announce | remember | wait | call | pause | compute =>
      exact .inl rfl
  store := by
    intro other c limit answer hmem
    rw [List.mem_append, List.mem_singleton] at hmem
    obtain hmem | heq := hmem
    · exact hg.store other c limit answer hmem
    · cases heq
      simp only [Fate.reply, turnout, Option.map_map, Function.comp_def]
      cases fate.store c with
      | none => rfl
      | some outcome => cases outcome <;> rfl

/-- Nothing else concerns a fate. -/
theorem Fate.Governs.other (hg : fate.Governs t) {m : Moment}
    (hsilent : ∀ worker e, m ≠ .answered worker e) : fate.Governs (t ++ [m]) := by
  have hanswers : answers (t ++ [m]) = answers t := by
    cases m with
    | answered worker e => exact absurd rfl (hsilent worker e)
    | cancelled | asked | selected | progressed => simp [answers]
  refine ⟨?_, ?_, fun worker c limit answer hmem => ?_⟩
  · rw [metadataEndings, hanswers]
    exact hg.metadata
  · intro target
    rw [fetchEndings, hanswers]
    exact hg.fetch target
  · rw [List.mem_append, List.mem_singleton] at hmem
    obtain hmem | rfl := hmem
    · exact hg.store worker c limit answer hmem
    · exact absurd rfl (hsilent _ _)

/-! ## To the end -/

/-- Everything has turned out as a fate says, and no time has passed. -/
structure Unfolding (fate : Fate) (start : World) (t : List Moment) (w : World) : Prop where
  uncancelled : wasCancelled t = false
  governed : fate.Governs t
  follows : Follows start t w
  now_eq : w.now = start.now

/-- An epoch that meets its fate still does so after a step in which it is answered accordingly. -/
theorem Unfolding.goes_on (hu : Unfolding fate start t w) {n : Option Moment}
    (hn : GoesOn (fate.reply t w) n) : ∃ w', Unfolding fate start (t ++ n.toList) w' := by
  obtain ⟨huncancelled, hgoverned, hfollows, hnow⟩ := hu
  cases hn with
  | silent => exact ⟨w, by simpa using ⟨huncancelled, hgoverned, hfollows, hnow⟩⟩
  | answered worker r =>
    refine ⟨_, ?_, hgoverned.answered worker r, hfollows.answered (fate.answers_reply t w r), ?_⟩
    · rw [wasCancelled_append, huncancelled]
      rfl
    · rw [World.now_after, hnow]
  | asked | selected | progressed =>
    refine ⟨w, ?_, hgoverned.other (by simp), hfollows.other (by simp), hnow⟩
    rw [wasCancelled_append, huncancelled]
    rfl

theorem Unfolding.continues {n : Nat} (hl : s.Lasts p n) (run : Run p trigger t s)
    (hu : Unfolding fate start t w) :
    ∃ u epoch w', Run p trigger (t ++ u) (.ended epoch) ∧ Unfolding fate start (t ++ u) w' := by
  induction n using Nat.strongRecOn generalizing t s w with
  | ind n ih =>
    obtain ⟨epoch, rfl⟩ | ⟨o, s', hstep, hgoes⟩ := run.over_or_step (fate.reply t w)
      (by rw [hu.uncancelled]; exact fate.reply_admits t w)
    · exact ⟨[], epoch, w, by simpa using And.intro run hu⟩
    · obtain ⟨k, hk, hl'⟩ := hl.step hstep
      obtain ⟨w', hu'⟩ := hu.goes_on hgoes
      obtain ⟨u, hrest⟩ := ih k hk hl' (run.step hstep) hu'
      exact ⟨o.toList ++ u, by simpa using hrest⟩

/-- **Every fate is met by some epoch**, at once. -/
theorem Fate.exists_fated (fate : Fate) (p : SyncPolicy) (trigger : Trigger) (start : World) :
    ∃ t epoch w, Fated p trigger fate start t epoch w ∧ w.now = start.now := by
  have run : Run p trigger [] (.start p trigger) := .start
  obtain ⟨n, hl, -⟩ := run.lasts
  have hnothing : fate.Governs [] :=
    ⟨nofun, fun _ => nofun, fun _ _ _ _ hmem => absurd hmem List.not_mem_nil⟩
  obtain ⟨t, epoch, w, hrun, hunfolding⟩ :=
    Unfolding.continues hl run ⟨rfl, hnothing, .start, rfl⟩
  exact ⟨t, epoch, w, ⟨hrun, hunfolding.uncancelled, hunfolding.governed, hunfolding.follows⟩,
    hunfolding.now_eq⟩

/-! ## Steady fates -/

/-- The content service answers every attempt, and the stores fail in nothing, except for some calls
that take too long. -/
def Fate.steady (m : Metadata) (payload : Json) (late : Call → Bool) : Fate where
  metadata _ := some (.ok m)
  fetch _ _ := some (.ok payload)
  store c := if late c then none else some (.ok ())

/-- How requests are answered under a steady fate. -/
def Conduct.steady (m : Metadata) (stored : StoredVersions) (payload : Json) (late : Call → Bool) :
    Conduct := (Conduct.smooth m stored payload fun _ => false).slow late

section

variable {m : Metadata} {stored : StoredVersions} {payload : Json} {late : Call → Bool}

theorem exists_of_mem_answers (he : e ∈ answers t) : ∃ worker, Moment.answered worker e ∈ t := by
  obtain ⟨x, hx, heq⟩ := List.mem_filterMap.1 he
  cases x with
  | answered worker d =>
    obtain rfl := Option.some.inj heq
    exact ⟨worker, hx⟩
  | cancelled | asked | selected | progressed => cases heq

/-- A history of steady answers is governed by a steady fate. -/
theorem Fate.governs_steady (ht : ∀ x ∈ t, (Conduct.steady m stored payload late).Conforms x) :
    (Fate.steady m payload late).Governs t where
  metadata := by
    intro n ending hn
    obtain ⟨⟨r, a⟩, he, htells⟩ := List.mem_filterMap.1 (List.mem_of_getElem? hn)
    obtain ⟨worker, hmem⟩ := exists_of_mem_answers he
    cases r with
    | attempt c limit =>
      cases c <;> cases htells
      exact ht _ hmem
    | publish | isCancelled | clock | announce | remember | wait | call | pause | compute =>
      cases htells
  fetch := by
    intro target n ending hn
    obtain ⟨⟨r, a⟩, he, htells⟩ := List.mem_filterMap.1 (List.mem_of_getElem? hn)
    obtain ⟨worker, hmem⟩ := exists_of_mem_answers he
    cases r with
    | attempt c limit =>
      cases c with
      | fetch other v unzip =>
        obtain ⟨-, htells⟩ := Option.ite_none_right_eq_some.1 htells
        obtain rfl := Option.some.inj htells
        exact ht _ hmem
      | metadata | player | versions | commit | read | exist | write | invalidate => cases htells
    | publish | isCancelled | clock | announce | remember | wait | call | pause | compute =>
      cases htells
  store := by
    intro worker c limit answer hmem
    obtain rfl : answer = (Conduct.steady m stored payload late).answer false (.call c limit) :=
      ht _ hmem
    simp only [Conduct.steady, Conduct.slow, Conduct.smooth, Fate.steady]
    cases late c <;> rfl

/-- Under a steady fate only the given versions are advertised. -/
theorem Conduct.advertised_of_conforms
    (ht : ∀ x ∈ t, (Conduct.steady m stored payload late).Conforms x) {m' : Metadata}
    (hb : Brought t .metadata m') : m' = m := by
  obtain ⟨worker, e, he, hb⟩ := hb
  have hconforms := ht _ he
  cases hb with
  | wait => exact Except.ok.inj hconforms
  | attempt limit => exact Except.ok.inj (Ending.answered.inj hconforms)
  | call limit =>
    have hanswer : (some (.ok m') : Option (Except Failure Metadata)) =
        if late .metadata then none else some (.ok m) := hconforms
    split at hanswer
    · cases hanswer
    · exact Except.ok.inj (Option.some.inj hanswer)

/-- **What is played steadily meets a steady fate.** -/
theorem Fated.of_play
    (hfollow : start.follow? ((Conduct.steady m stored payload late).play p trigger false).history =
      some w) :
    Fated p trigger (.steady m payload late) start
      ((Conduct.steady m stored payload late).play p trigger false).history
      ((Conduct.steady m stored payload late).play p trigger false).result w := by
  have hconforms : ∀ x ∈ ((Conduct.steady m stored payload late).play p trigger false).history,
      (Conduct.steady m stored payload late).Conforms x := Conduct.play_conforms fun _ => rfl
  refine ⟨Conduct.play_run false, ?_, Fate.governs_steady hconforms, World.follows_of_start hfollow⟩
  rw [← Bool.not_eq_true, wasCancelled_iff]
  exact fun hc => hconforms _ hc

end

/-- What has no time to expire does not. -/
theorem unexpired_of_now_eq (h : w.now = start.now) (key : CacheKey) : Unexpired start w key := by
  rw [Unexpired, h]

end Engine

end ContentSync
