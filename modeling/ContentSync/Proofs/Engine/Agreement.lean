import ContentSync.Proofs.Engine.Passage
import ContentSync.Proofs.Engine.Fate

/-!
# Parts of two epochs that agree

Two epochs whose calls turn out alike take the same course, part by part. What has to turn out alike
is different for each part, so each of them has its own lemma.

* `Fated.check_unique` — the check: the attempts at the metadata, and the committed versions;
* `Fated.job_unique`, `Fated.jobs_unique` — the fetch of a target: the attempts at that target;
* `Fated.ends_unique` — anything that only calls the stores: these calls.
-/

set_option autoImplicit false

namespace ContentSync

namespace Engine

open Program

variable {p p₁ p₂ : SyncPolicy} {trigger₁ trigger₂ : Trigger} {fate fate' : Fate}
  {start start' w w' : World} {t t' : List Moment} {epoch epoch' : Epoch}

/-! ## Attempts -/

/-- What only one worker is told can be read off its own exchanges. -/
theorem filterMap_answers_eq {β : Type} {g : Exchange → Option β} {worker : Worker}
    (honly : ∀ other e, Moment.answered other e ∈ t → other ≠ worker → g e = none) :
    (answers t).filterMap g = (exchanges worker t).filterMap g := by
  induction t with
  | nil => rfl
  | cons m t ih =>
    have hrest := ih fun other e he => honly other e (List.mem_cons_of_mem _ he)
    have hanswers : answers (m :: t) = answers [m] ++ answers t := by
      rw [← List.singleton_append, answers, List.filterMap_append]
      rfl
    rw [hanswers, List.filterMap_append, hrest, ← List.singleton_append (l := t), exchanges_append,
      List.filterMap_append]
    congr 1
    cases m with
    | answered other e =>
      by_cases hother : other = worker
      · simp [answers, hother]
      · simp [answers, hother, honly other e List.mem_cons_self hother]
    | cancelled | asked | selected | progressed => rfl

/-- Only the epoch itself asks for the metadata. -/
theorem Run.metadataEndings_eq {s : Situation} (run : Run p₁ trigger₁ t s) :
    metadataEndings t = (exchanges .epoch t).filterMap Exchange.metadataEnding? := by
  refine filterMap_answers_eq fun other e he hother => ?_
  cases other with
  | epoch => exact absurd rfl hother
  | job n =>
    obtain ⟨t₁, t₂, rfl⟩ := List.append_of_mem he
    obtain ⟨job, hasks⟩ := run.asked_job (.answered e.answer)
    obtain ⟨r, a⟩ := e
    obtain ⟨heq | ⟨_, heq⟩, -⟩ := asks_fetchOne hasks
    · obtain rfl := heq
      rfl
    · obtain rfl := heq
      rfl

/-- Only its job asks for a target. -/
theorem Results.fetchEndings_eq {s : Situation} (run : Run p₁ trigger₁ t s) {jobs : List Job}
    {results : List Fetched} (hr : Results p t jobs results) (hnodup : (jobs.map (·.1)).Nodup)
    {n : Nat} {job : Job} (hn : jobs[n]? = some job) :
    fetchEndings job.1 t = (exchanges (.job n) t).filterMap (Exchange.fetchEnding? job.1) := by
  refine filterMap_answers_eq fun other e he hother => ?_
  rw [← mem_exchanges] at he
  obtain ⟨r, a⟩ := e
  cases other with
  | epoch =>
    obtain hcheck | ⟨_, heq | heq | ⟨_, -, hconcerns⟩⟩ | hends := run.answered_epoch he
    · cases r <;> first | rfl | exact hcheck.elim | skip
      rename_i c limit
      cases c <;> first | rfl | exact hcheck.elim
    · obtain rfl : r = _ := heq
      rfl
    · obtain rfl : r = _ := heq
      rfl
    · cases r <;> first | rfl | exact hconcerns.elim
    · cases r <;> first | rfl | cases hends
  | job m =>
    have hlt : m < results.length := by
      rw [hr.length_eq]
      refine Nat.lt_of_not_le fun hle => ?_
      rw [hr.beyond m hle] at he
      cases he
    obtain ⟨job', hm, hends⟩ := hr.result m _ (List.getElem?_eq_getElem hlt)
    obtain ⟨_, hasks⟩ := Path.asks_of_mem hends he
    obtain ⟨heq | ⟨_, heq⟩, -⟩ := asks_fetchOne hasks
    · obtain rfl := heq
      refine if_neg fun htarget => hother ?_
      -- The same target would stand at two places in the list.
      have hsame : (jobs.map (·.1))[m]? = (jobs.map (·.1))[n]? := by
        simp [hm, hn, htarget]
      have hlt' : m < (jobs.map (·.1)).length := by
        simpa using (List.getElem?_eq_some_iff.1 hm).1
      rw [(List.getElem?_inj hlt' hnodup).1 hsame]
    · obtain rfl := heq
      rfl

/-- Nobody cuts a pause short. -/
theorem Fated.uncut (hf : Fated p₁ trigger₁ fate start t epoch w) (hd : start.cache.Distinct)
    {worker : Worker} (length : Duration) :
    (⟨.pause length, true⟩ : Exchange) ∉ exchanges worker t := by
  intro he
  have hcut : true = false := hf.settles hd he nofun
  cases hcut

/-! ## The stores -/

/-- A call to the stores turns out alike in two epochs, and the stores hold the same about it, all the
time. -/
structure Alike (fate fate' : Fate) (start w start' w' : World) (c : Call) : Prop where
  store : fate.store c = fate'.store c
  agrees : start.Agrees start' c
  unexpired : ∀ key, c.lookedAt? = some key → Unexpired start w key ∧ Unexpired start' w' key

theorem alike_self {c : Call} (hstore : fate.store c = fate'.store c) (hc : c.isOfStores = true)
    (hu : ∀ key, c.lookedAt? = some key → Unexpired start w key ∧ Unexpired start w' key) :
    Alike fate fate' start w start w' c := ⟨hstore, start.agrees_self hc, hu⟩

/-- **Parts of two epochs in which the stores are asked the same, and answer alike, are the same.** -/
theorem Fated.ends_unique (one : Fated p₁ trigger₁ fate start t epoch w)
    (two : Fated p₂ trigger₂ fate' start' t' epoch' w') (hd : start.cache.Distinct)
    (hd' : start'.cache.Distinct) {α : Type} {q : Program α} {k k' : List Exchange} {a b : α}
    (hk : k ⊆ exchanges .epoch t) (hk' : k' ⊆ exchanges .epoch t') (hends : q.Ends k a)
    (hends' : q.Ends k' b)
    (hasks : ∀ h r, q.Asks h r → r.isSettled = true ∧
      ∀ c limit, r = .call c limit → Alike fate fate' start w start' w' c) : k = k' ∧ a = b := by
  have hasked : ∀ {l : List Exchange} {x : α}, q.Ends l x → ∀ e ∈ l,
      e.request.isSettled = true ∧ ∀ c limit, e.request = .call c limit →
        Alike fate fate' start w start' w' c := by
    intro l x hl e he
    obtain ⟨h, hr⟩ := Path.asks_of_mem hl he
    exact hasks h _ hr
  have hlooked : ∀ {l : List Exchange} {x : α}, q.Ends l x → ∀ e ∈ l, ∀ c key,
      e.request.call? = some c → c.lookedAt? = some key →
        Unexpired start w key ∧ Unexpired start' w' key := by
    intro l x hl e he c key hc hkey
    obtain ⟨hsettled, hcalls⟩ := hasked hl e he
    obtain ⟨r, a⟩ := e
    cases r with
    | call d limit =>
      obtain rfl := Option.some.inj hc
      exact (hcalls d limit rfl).unexpired key hkey
    | wait | attempt => cases hsettled
    | publish | isCancelled | clock | announce | remember | pause | compute => cases hc
  have hone : ∀ e ∈ k, fate.Settles start e ∧ e.request.isSettled = true := fun e he =>
    ⟨one.settles hd (hk he) fun c key hc hkey => (hlooked hends e he c key hc hkey).1,
      (hasked hends e he).1⟩
  have htwo : ∀ e ∈ k', fate'.Settles start' e := fun e he =>
    two.settles hd' (hk' he) fun c key hc hkey => (hlooked hends' e he c key hc hkey).2
  refine hends.unique hends' (concordant_of_settles hone htwo fun e he c limit hr => ?_)
  have halike := (hasked hends e he).2 c limit hr
  exact ⟨halike.store, halike.agrees⟩

/-- **Two checks that are told the same are the same.** -/
theorem Fated.check_unique (one : Fated p₁ trigger₁ fate start t epoch w)
    (two : Fated p₂ trigger₂ fate' start' t' epoch' w') (hd : start.cache.Distinct)
    (hd' : start'.cache.Distinct) (hmetadata : fate.metadata = fate'.metadata)
    (hstore : fate.store .versions = fate'.store .versions)
    (hversions : start.versions = start'.versions) {began began' : Timestamp}
    {c c' rest rest' : List Exchange} {result result' : Except Failure (Metadata × StoredVersions)}
    (split : exchanges .epoch t = opening began ++ (c ++ rest))
    (split' : exchanges .epoch t' = opening began' ++ (c' ++ rest'))
    (checked : (check p).Ends c result) (checked' : (check p).Ends c' result') :
    c = c' ∧ result = result' := by
  simp only [check, ends_bind] at checked checked'
  obtain ⟨k, l, ⟨n, advertised⟩, rfl, hk, hl⟩ := checked
  obtain ⟨k', l', ⟨n', advertised'⟩, rfl, hk', hl'⟩ := checked'
  have hsub : ∀ e ∈ k ++ l, e ∈ exchanges .epoch t := by
    intro e he
    rw [split]
    exact List.mem_append_right _ (List.mem_append_left _ he)
  have hsub' : ∀ e ∈ k' ++ l', e ∈ exchanges .epoch t' := by
    intro e he
    rw [split']
    exact List.mem_append_right _ (List.mem_append_left _ he)
  have hmatching : Matching (k.filterMap Exchange.metadataEnding?)
      (k'.filterMap Exchange.metadataEnding?) := by
    intro i a a' ha ha'
    have hgoverned : ∀ {u : List Moment} {now : Timestamp} {h h₁ h₂ : List Exchange},
        metadataEndings u = (exchanges .epoch u).filterMap Exchange.metadataEnding? →
        exchanges .epoch u = opening now ++ (h ++ h₁ ++ h₂) → ∀ x,
        (h.filterMap Exchange.metadataEnding?)[i]? = some x →
          (metadataEndings u)[i]? = some x := by
      intro u now h h₁ h₂ heq hsplit x hx
      obtain ⟨hlt, -⟩ := List.getElem?_eq_some_iff.1 hx
      rw [heq, hsplit, List.filterMap_append, List.append_assoc, List.filterMap_append]
      simp only [opening, List.filterMap_cons, Exchange.metadataEnding?, List.filterMap_nil,
        List.nil_append]
      rw [List.getElem?_append_left hlt, hx]
    rw [one.governed.metadata i a (hgoverned one.run.metadataEndings_eq split a ha),
      two.governed.metadata i a' (hgoverned two.run.metadataEndings_eq split' a' ha'), hmetadata]
  obtain ⟨rfl, heq⟩ := ends_withRetry_unique ⟨fun _ _ => rfl, fun _ _ => rfl⟩ hk hk' hmatching
    (fun length he => one.uncut hd length (hsub _ (List.mem_append_left _ he)))
    fun length he => two.uncut hd' length (hsub' _ (List.mem_append_left _ he))
  obtain ⟨rfl, rfl⟩ := Prod.mk.inj heq
  suffices hlast : l = l' ∧ result = result' by
    obtain ⟨rfl, rfl⟩ := hlast
    exact ⟨rfl, rfl⟩
  refine one.ends_unique two hd hd' (fun e he => hsub e (List.mem_append_right _ he))
    (fun e he => hsub' e (List.mem_append_right _ he)) hl hl' fun h r hr => ?_
  cases advertised with
  | error f => simp at hr
  | ok m =>
    simp only [asks_bind, asks_bounded, asks_pure, and_false, exists_false, or_false] at hr
    obtain ⟨-, rfl⟩ := hr
    refine ⟨rfl, ?_⟩
    rintro c limit ⟨⟩
    refine ⟨hstore, fun x x' hx hx' => ?_, fun key hkey => by cases hkey⟩
    obtain rfl : x = start.versions := hx
    obtain rfl : x' = start'.versions := hx'
    exact hversions

/-! ## Jobs -/

/-- **Two fetches of a target whose attempts end alike are the same.** -/
theorem Fated.job_unique (one : Fated p₁ trigger₁ fate start t epoch w)
    (two : Fated p₂ trigger₂ fate' start' t' epoch' w') (hd : start.cache.Distinct)
    (hd' : start'.cache.Distinct) {jobs jobs' : List Job} {results results' : List Fetched}
    (hr : Results p t jobs results) (hr' : Results p t' jobs' results')
    (hnodup : (jobs.map (·.1)).Nodup) (hnodup' : (jobs'.map (·.1)).Nodup) {n n' : Nat} {job : Job}
    (hn : jobs[n]? = some job) (hn' : jobs'[n']? = some job)
    (hfetch : fate.fetch job.1 = fate'.fetch job.1) :
    exchanges (.job n) t = exchanges (.job n') t' ∧ results[n]? = results'[n']? := by
  have hresult : ∀ {u : List Moment} {js : List Job} {rs : List Fetched} {i : Nat},
      Results p u js rs → js[i]? = some job →
        ∃ f, rs[i]? = some f ∧ (fetchOne p job).Ends (exchanges (.job i) u) f := by
    intro u js rs i hrs hi
    have hlt : i < rs.length := by
      rw [hrs.length_eq]
      exact (List.getElem?_eq_some_iff.1 hi).1
    obtain ⟨job', hjob, hends⟩ := hrs.result i _ (List.getElem?_eq_getElem hlt)
    rw [hi] at hjob
    obtain rfl := Option.some.inj hjob
    exact ⟨_, List.getElem?_eq_getElem hlt, hends⟩
  obtain ⟨f, hf, hends⟩ := hresult hr hn
  obtain ⟨f', hf', hends'⟩ := hresult hr' hn'
  have hmatching : Matching
      ((exchanges (.job n) t).filterMap (Exchange.fetchEnding? job.1))
      ((exchanges (.job n') t').filterMap (Exchange.fetchEnding? job.1)) := by
    intro i a a' ha ha'
    rw [← hr.fetchEndings_eq one.run hnodup hn] at ha
    rw [← hr'.fetchEndings_eq two.run hnodup' hn'] at ha'
    rw [one.governed.fetch job.1 i a ha, two.governed.fetch job.1 i a' ha', hfetch]
  simp only [fetchOne, ends_bind, ends_pure] at hends hends'
  obtain ⟨k, _, x, hk, hwith, rfl, rfl⟩ := hends
  obtain ⟨k', _, x', hk', hwith', rfl, rfl⟩ := hends'
  rw [List.append_nil] at hk hk'
  rw [hk, hk'] at hmatching
  obtain ⟨rfl, rfl⟩ := ends_withRetry_unique
    ⟨fun _ _ => if_pos rfl, fun _ _ => rfl⟩ hwith hwith' hmatching
    (fun length he => one.uncut hd length (hk ▸ he)) fun length he =>
      two.uncut hd' length (hk' ▸ he)
  exact ⟨hk.trans hk'.symm, hf.trans hf'.symm⟩

/-- **Two epochs with the same jobs gather the same** when the attempts of each end alike. -/
theorem Fated.jobs_unique (one : Fated p₁ trigger₁ fate start t epoch w)
    (two : Fated p₂ trigger₂ fate' start' t' epoch' w') (hd : start.cache.Distinct)
    (hd' : start'.cache.Distinct) {jobs : List Job} {results results' : List Fetched}
    (hr : Results p t jobs results) (hr' : Results p t' jobs results')
    (hnodup : (jobs.map (·.1)).Nodup) (hfetch : fate.fetch = fate'.fetch) :
    (∀ n, exchanges (.job n) t = exchanges (.job n) t') ∧ results = results' := by
  have hjobs : ∀ n : Nat, exchanges (.job n) t = exchanges (.job n) t' ∧
      results[n]? = results'[n]? := by
    intro n
    cases hn : jobs[n]? with
    | some job =>
      exact one.job_unique two hd hd' hr hr' hnodup hnodup hn hn (congrFun hfetch job.1)
    | none =>
      have hlength := List.getElem?_eq_none_iff.1 hn
      rw [hr.beyond n hlength, hr'.beyond n hlength,
        List.getElem?_eq_none (by rwa [hr.length_eq]),
        List.getElem?_eq_none (by rwa [hr'.length_eq])]
      exact ⟨rfl, rfl⟩
  exact ⟨fun n => (hjobs n).1, List.ext_getElem? fun n => (hjobs n).2⟩

end Engine

end ContentSync
