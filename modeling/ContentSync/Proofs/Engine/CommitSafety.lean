import ContentSync.Proofs.Engine.Effects
import ContentSync.Proofs.Engine.Solo

/-!
# Commits are safe

Whatever the collaborators answer, in whichever order the fetches end, and whenever an epoch is
cancelled, a version is committed only when it has been fetched and written in full.

* `Started` — a call was started at some point of a history;
* `Warranted` — what must have happened before a version of a kind is committed;
* `Run.commits_safely` — every commit is warranted, entries are removed only after a commit, and a
  kind with a failed target is left alone.
-/

set_option autoImplicit false

namespace ContentSync.Engine

open Program

variable {p : SyncPolicy} {trigger : Trigger} {t u : List Moment} {s : Situation}

/-- A call was started when a part of the history had passed. -/
def Started (t past : List Moment) (c : Call) : Prop :=
  ∃ w r rest, t = past ++ .asked w r :: rest ∧ r.call? = some c

/-- What must have happened in an epoch before a version of a kind is committed. -/
structure Warranted (p : SyncPolicy) (t : List Moment) (kind : DataKind) (v : Version) : Prop where
  /-- The version is the advertised one, and every target that was due was selected. -/
  selected : ∃ jobs m stored, KindSelected p t jobs m stored kind v ∧
    ∀ target, target.kind = kind → (target, v) ∈ jobs →
      ∃ payload, Brought t (.fetch target v p.unzip) payload ∧
        Brought t (.write (target.key v) payload (p.lifetime kind)) ()
  uncancelled : wasCancelled t = false
  /-- The kind has not been committed yet. -/
  first : ∀ v', Call.commit kind v' ∉ calls t

/-- When a kind is committed it has been selected, and every selected target of it has been fetched
and written. -/
theorem Run.selected_of_commit {m : Moment} {w : Worker} {q : Request} {kind : DataKind}
    {v : Version} (run : Run p trigger (t ++ m :: u) s) (hm : m.Faces w q)
    (hq : q.call? = some (.commit kind v)) :
    ∃ jobs metadata stored, KindSelected p t jobs metadata stored kind v ∧
      ∀ target, target.kind = kind → (target, v) ∈ jobs →
        ∃ payload, Brought t (.fetch target v p.unzip) payload ∧
          Brought t (.write (target.key v) payload (p.lifetime kind)) () := by
  obtain ⟨rfl, epoch, jobs, results, r, l, targets, hp, hwrites, hdone, rfl, rfl, -⟩ :=
    run.asked_commit hm hq
  obtain ⟨s₁, run₁, -⟩ := run.split
  obtain ⟨metadata, stored, hselected, -⟩ := hp.selection run₁
  refine ⟨jobs, metadata, stored, hselected, fun target hkind hjob => ?_⟩
  have hwritten := (ends_writeTargets hwrites).written_of_forall hdone
  obtain ⟨f, hf, rfl⟩ : ∃ f ∈ results, f.target = target := by
    obtain ⟨writes, -, -⟩ := hp
    exact writes.fetched.exists_of_job hjob
  obtain ⟨payload, hpayload, hmem⟩ := hwritten f (by simp [hf, hkind])
  refine ⟨payload, (hp.fetched run₁ hf hkind hpayload).2, .epoch, _,
    hp.answered (List.mem_append_left _ hmem), ?_⟩
  rw [← hkind]
  exact .call _

/-- A kind that is processed has not been committed before. -/
theorem Processing.not_commit {epoch : Epoch} {jobs : List Job} {results : List Fetched}
    {r : KindReport} {l : List Exchange} (hp : Processing p trigger t epoch jobs results r l)
    {v : Version} {limit : Duration} (hl : ∀ e ∈ l, e.request ≠ .call (.commit r.kind v) limit) :
    ∀ e ∈ exchanges .epoch t, e.request ≠ .call (.commit r.kind v) limit := by
  obtain ⟨writes, kinds_eq, processed⟩ := hp
  have hnodup := writes.nodup_kinds
  rw [kinds_eq, List.map_append, List.map_cons, List.nodup_append] at hnodup
  obtain ⟨-, -, hne⟩ := hnodup
  intro e he hrequest
  obtain ⟨-, hcheck⟩ | ⟨he, -⟩ := writes.cases_of_mem he
  · rw [hrequest] at hcheck
    exact hcheck
  simp only [List.mem_cons, List.mem_append] at he
  obtain rfl | rfl | he | he := he
  · cases hrequest
  · cases hrequest
  · obtain ⟨_, hasks⟩ := Path.asks_of_mem processed he
    obtain ⟨r', hr', hconcerns⟩ := asks_processKinds_concerns hasks
    rw [hrequest] at hconcerns
    exact hne _ (List.mem_map_of_mem hr') _ List.mem_cons_self hconcerns.symm
  · exact hl e he hrequest

/-- While the targets of a kind are written, it is not committed. -/
theorem not_commit_of_writeTargets {results : List Fetched} {r : KindReport} {l : List Exchange}
    {rest : Program (List TargetReport)}
    (hq : (writeTargets p r (results.filter fun f => f.target.kind = r.kind)).Path l rest)
    (kind : DataKind) (v : Version) (limit : Duration) :
    ∀ e ∈ l, e.request ≠ .call (.commit kind v) limit := by
  intro e he hrequest
  obtain ⟨_, hasks⟩ := Path.asks_of_mem hq he
  have hcalls := (asks_writeTargets_concerns hasks).2 _ _ hrequest
  simp at hcalls

/-- When a kind is committed, no other commit of it has been answered. -/
theorem Run.commit_first {m : Moment} {w : Worker} {q : Request} {kind : DataKind} {v v' : Version}
    (run : Run p trigger (t ++ m :: u) s) (hm : m.Faces w q)
    (hq : q.call? = some (.commit kind v)) {e : Exchange} (he : e ∈ exchanges .epoch t)
    {limit : Duration} (hrequest : e.request = .call (.commit kind v') limit) : False := by
  obtain ⟨rfl, epoch, jobs, results, r, l, targets, hp, hwrites, hdone, rfl, rfl, -⟩ :=
    run.asked_commit hm hq
  refine hp.not_commit (fun e he hrequest => ?_) e he hrequest
  obtain he | he := List.mem_append.1 he
  · exact not_commit_of_writeTargets hwrites _ _ _ e he hrequest
  · rw [List.mem_singleton.1 he] at hrequest
    cases hrequest

/-- When an entry of a target is read, its kind has not been committed yet. -/
theorem Run.not_commit_of_read {m : Moment} {w : Worker} {q : Request} {key : CacheKey}
    (run : Run p trigger (t ++ m :: u) s) (hm : m.Faces w q) (hq : q.call? = some (.read key)) :
    ∃ target v, key = FetchTarget.key target v ∧ ∀ v' limit, ∀ e ∈ exchanges .epoch t,
      e.request ≠ .call (.commit target.kind v') limit := by
  obtain ⟨rfl, ⟨limit, rfl⟩, epoch, jobs, results, r, l, hp, hasks, -⟩ := run.asked_kind hm hq rfl
  obtain ⟨target, v, hkind, rfl⟩ := asks_processKind_concerns hasks
  refine ⟨target, v, rfl, fun v' limit' => ?_⟩
  rw [hkind]
  obtain ⟨_, hpath⟩ | ⟨l₁, l₂, targets, rfl, hwrites, hasks⟩ := asks_processKind hasks
  · exact hp.not_commit (not_commit_of_writeTargets hpath _ _ _)
  · obtain ⟨-, ⟨-, heq⟩ | ⟨-, heq⟩ | ⟨k, -, hasks⟩⟩ := asks_commitKind hasks
    · cases heq
    · cases heq
    · obtain ⟨_, -, -, _, -, heq⟩ := asks_expirePrevious hasks
      cases heq

/-- **Every commit is warranted.** -/
theorem Run.warranted {w : Worker} {q : Request} {kind : DataKind} {v : Version}
    (run : Run p trigger (t ++ .asked w q :: u) s) (hq : q.call? = some (.commit kind v)) :
    Warranted p t kind v := by
  refine ⟨run.selected_of_commit .asked hq, ?_, ?_⟩
  · obtain ⟨rfl, _, _, _, _, _, _, -, -, -, -, -, hlast⟩ := run.asked_commit .asked hq
    obtain ⟨past, rfl⟩ := List.getLast?_eq_some_iff.1 (hlast run.balanced_of_asked)
    rw [List.append_assoc, List.singleton_append] at run
    rw [wasCancelled_append, ← run.cancelled_eq]
    rfl
  · intro v' hmem
    obtain ⟨rfl, -⟩ := run.asked_commit .asked hq
    obtain ⟨s₁, run₁, -⟩ := run.split
    obtain ⟨e, he, limit, hrequest⟩ := run₁.exchange_of_call run.balanced_of_asked hmem rfl
    exact run.commit_first .asked hq he hrequest

/-- **Entries of a kind are removed only after a commit of it**, and they are of another version. -/
theorem Run.committed_of_invalidate {m : Moment} {w : Worker} {q : Request} {key : CacheKey}
    (run : Run p trigger (t ++ m :: u) s) (hm : m.Faces w q)
    (hq : q.call? = some (.invalidate key)) :
    ∃ target v v', key = FetchTarget.key target v ∧ v ≠ v' ∧ Brought t (.commit target.kind v') () := by
  obtain ⟨epoch, jobs, results, r, l, k, old, target, hp, -, hne, hkind, rfl⟩ :=
    run.asked_invalidate hm hq
  rw [← hkind] at hp
  refine ⟨target, old, r.newVersion, rfl, hne, .epoch, _, hp.answered ?_, .call p.ioTimeout⟩
  simp

/-- **A kind with a failed target is not committed.** -/
theorem Run.fullyWritten_of_commit {epoch : Epoch} (run : Run p trigger t (.ended epoch))
    {report : KindReport} (hr : report ∈ epoch.kinds) {v : Version}
    (hmem : Call.commit report.kind v ∈ calls t) : report.fullyWritten = true := by
  obtain ⟨hbalanced, hfinished⟩ := run.finished
  obtain ⟨e, he, limit, hrequest⟩ := run.exchange_of_call hbalanced hmem rfl
  cases hfinished with
  | stopped split checked unselected concluded =>
    obtain ⟨now, rfl⟩ := ends_concluding concluded
    rw [show ∀ e : Epoch, (e.finalize now).kinds = e.kinds from fun _ => rfl,
      ends_checking_stopped checked] at hr
    cases hr
  | @written h k l e' written jobs results split checked selected fetched wrote concluded =>
    obtain ⟨now, rfl⟩ := ends_concluding concluded
    obtain ⟨c, k, kinds, rfl, hkinds, rfl⟩ := ends_writing wrote
    obtain ⟨m, stored, sels, hselected⟩ := ends_checking_ready checked
    simp only [split, List.mem_append, List.mem_cons] at he
    obtain he | (rfl | rfl | he) | he := he
    · obtain ⟨_, hasks⟩ := Path.asks_of_mem checked he
      have hcheck := asks_checking hasks
      rw [hrequest] at hcheck
      exact hcheck.elim
    · cases hrequest
    · cases hrequest
    · exact fullyWritten_of_commit_mem hkinds hselected.nodup_kinds he hrequest hr rfl
    · obtain ⟨_, hasks⟩ := Path.asks_of_mem concluded he
      have hconclusion := asks_concluding hasks
      rw [hrequest] at hconclusion
      cases hconclusion

/-- **Commits are safe.** Every commit is warranted, only entries of another version are removed and
only after a commit of their kind, and a kind with a failed target is neither committed nor has
entries removed. -/
theorem Run.commits_safely (run : Run p trigger t s) :
    (∀ past kind v, Started t past (.commit kind v) → Warranted p past kind v) ∧
    (∀ past key, Started t past (.invalidate key) →
      ∃ target v v', key = FetchTarget.key target v ∧ v ≠ v' ∧
        Brought past (.commit target.kind v') ()) ∧
    ∀ epoch, s = .ended epoch → ∀ report ∈ epoch.kinds,
      (∃ target ∈ report.targets, target.error ≠ none) →
        (∀ v, Call.commit report.kind v ∉ calls t) ∧
        ∀ target v, target.kind = report.kind →
          Call.invalidate (FetchTarget.key target v) ∉ calls t := by
  refine ⟨?_, ?_, ?_⟩
  · rintro past kind v ⟨w, q, rest, rfl, hq⟩
    exact run.warranted hq
  · rintro past key ⟨w, q, rest, rfl, hq⟩
    exact run.committed_of_invalidate .asked hq
  · rintro epoch rfl report hr ⟨target, htarget, herror⟩
    have huncommitted : ∀ v, Call.commit report.kind v ∉ calls t := by
      intro v hmem
      have hfull := run.fullyWritten_of_commit hr hmem
      rw [KindReport.fullyWritten, Bool.and_eq_true_iff, List.all_eq_true] at hfull
      exact herror (Option.isNone_iff_eq_none.1 (hfull.2 target htarget))
    refine ⟨huncommitted, fun target v hkind hmem => ?_⟩
    obtain ⟨past, w, q, rest, rfl, hq⟩ := exists_of_mem_calls hmem
    obtain ⟨target', _, v', hkey, -, hbrought⟩ := run.committed_of_invalidate .asked hq
    obtain ⟨rfl, -⟩ := FetchTarget.key_inj hkey
    obtain ⟨s₁, run₁, -⟩ := run.split
    rw [hkind] at hbrought
    exact huncommitted v' (by simp [run₁.mem_calls_of_brought hbrought rfl])

/-- The commit of new game data is warranted. -/
theorem Run.commits_safely_newGameData :
    ∃ past, Started ((Conduct.newGameData fun _ => false).play .fullOnly .manual false).history past
        (.commit .gameData ⟨"2"⟩) ∧ Warranted .fullOnly past .gameData ⟨"2"⟩ := by
  have hmem : Call.commit .gameData ⟨"2"⟩ ∈
      calls ((Conduct.newGameData fun _ => false).play .fullOnly .manual false).history :=
    List.mem_of_getElem? (i := 5) rfl
  obtain ⟨past, w, r, rest, heq, hr⟩ := exists_of_mem_calls hmem
  have hstarted : Started _ past (.commit .gameData ⟨"2"⟩) := ⟨w, r, rest, heq, hr⟩
  exact ⟨past, hstarted, (Run.commits_safely (Conduct.play_run false)).1 past _ _ hstarted⟩

end ContentSync.Engine
