import ContentSync.Proofs.Engine.Calls
import ContentSync.Proofs.Engine.CheckingPath
import Mathlib.Data.List.Nodup

/-!
# What the check comes to

* `Request.IsOfCheck` / `asks_checking` — the check asks for versions and whether entries exist, and
  makes no other call;
* `Surveyed` — what the check was told, and which kinds it has selected for it;
* `CheckEnd` / `ends_checking` — a check has failed, has found nothing to fetch, or has selected
  something;
* `Selected` / `ends_checking_ready` — what is known when there is something to fetch;
* `ends_checking_stopped` — no kind is reported when there is not.
-/

set_option autoImplicit false

namespace ContentSync

namespace Request

/-- The requests of the check. -/
def IsOfCheck (p : SyncPolicy) : Request → Prop
  | publish phase => phase = .checking
  | clock | pause _ => True
  | attempt .metadata limit => limit = p.fetchTimeout
  | call .versions limit | call (.exist _) limit => limit = p.ioTimeout
  | _ => False

end Request

/-- A call was made and brought nothing. -/
def Exchange.Failed (e : Exchange) : Prop :=
  ∃ c, e.request.call? = some c ∧ ∀ x : c.Answer, ¬ e.Brings c x

namespace Engine

open Program

variable {p : SyncPolicy} {h : List Exchange} {r : Request} {m : Metadata} {s : StoredVersions}

/-! ## Failures -/

/-- A bounded call that fails has brought nothing. -/
theorem failed_of_boundedResult {what : String} {late : String → Failure} {c : Call}
    {a : Option (Except Failure c.Answer)} {f : Failure}
    (ha : boundedResult p what late a = .error f) :
    Exchange.Failed ⟨.call c p.ioTimeout, a⟩ := by
  refine ⟨c, rfl, fun x hb => ?_⟩
  cases hb
  cases ha

/-- An attempt that does not succeed has brought nothing. -/
theorem failed_of_attempt {c : Call} {limit : Duration} {ending : Ending c.Answer}
    (hn : ∀ x, ending ≠ .answered (.ok x)) : Exchange.Failed ⟨.attempt c limit, ending⟩ := by
  refine ⟨c, rfl, fun x hb => ?_⟩
  cases hb
  exact hn x rfl

/-- A call with retries is attempted at least once. -/
theorem exists_attempt_of_ends_withRetry {what : String} {c : Call} {n : Nat}
    {result : Except Failure c.Answer} (hr : (withRetry p what c).Ends h (n, result)) :
    ∃ ending, ⟨.attempt c p.fetchTimeout, ending⟩ ∈ h := by
  unfold withRetry at hr
  cases hleft : p.retry.maxAttempts - 1 with
  | zero =>
    simp only [hleft, retrying, ends_bind, ends_request] at hr
    obtain ⟨_, _, ending, rfl, rfl, -⟩ := hr
    exact ⟨ending, by simp⟩
  | succ left =>
    simp only [hleft, retrying, ends_bind, ends_request] at hr
    obtain ⟨_, _, ending, rfl, rfl, -⟩ := hr
    exact ⟨ending, by simp⟩

/-- **A call with retries that fails has had an attempt that failed.** -/
theorem exists_failed_of_ends_withRetry {what : String} {c : Call} {n : Nat} {f : Failure}
    (hr : (withRetry p what c).Ends h (n, .error f)) : ∃ e ∈ h, e.Failed := by
  obtain ⟨ending, hmem⟩ := exists_attempt_of_ends_withRetry hr
  refine ⟨_, hmem, failed_of_attempt ?_⟩
  rintro x rfl
  cases (ends_withRetry_ok_iff hr x).2 hmem

/-! ## The versions -/

theorem asks_check (hr : (check p).Asks h r) : r.IsOfCheck p := by
  simp only [check, asks_bind] at hr
  obtain hr | ⟨_, _, ⟨n, result⟩, rfl, -, hr⟩ := hr
  · obtain rfl | ⟨_, rfl⟩ := (asks_withRetry hr).1
    · rfl
    · trivial
  · cases result with
    | error f => simp at hr
    | ok m =>
      simp only [asks_bind, asks_bounded, asks_pure, and_false, exists_false, or_false] at hr
      obtain ⟨-, rfl⟩ := hr
      rfl

/-- What a retried call for the metadata exchanges. -/
theorem request_of_mem_metadata {n : Nat} {result : Except Failure Metadata}
    (hr : (withRetry p "metadata" .metadata).Ends h (n, result)) {e : Exchange} (he : e ∈ h) :
    e.request = .attempt .metadata p.fetchTimeout ∨ ∃ length, e.request = .pause length := by
  obtain ⟨_, ha⟩ := Path.asks_of_mem hr he
  exact (asks_withRetry ha).1

/-- **The versions are known when both calls have succeeded**, and then only these are. -/
theorem ends_check_ok (hr : (check p).Ends h (.ok (m, s))) :
    (∀ m', advertisement p m' ∈ h ↔ m' = m) ∧ ∀ s', committal p s' ∈ h ↔ s' = s := by
  simp only [check, ends_bind] at hr
  obtain ⟨k, _, ⟨n, result⟩, rfl, hk, hr⟩ := hr
  cases result with
  | error f => simp at hr
  | ok m' =>
    simp only [ends_bind, ends_bounded, ends_pure] at hr
    obtain ⟨_, _, _, rfl, ⟨a, rfl, rfl⟩, rfl, heq⟩ := hr
    cases hres : boundedResult p "read versions" .persistence a with
    | error f =>
      rw [hres] at heq
      cases heq
    | ok s' =>
      rw [hres] at heq
      obtain ⟨rfl, rfl⟩ := Prod.mk.inj (Except.ok.inj heq)
      rw [boundedResult_eq_ok_iff] at hres
      subst hres
      simp only [List.append_nil, List.mem_append, List.mem_singleton]
      constructor
      · intro m'
        have hiff := ends_withRetry_ok_iff hk m'
        rw [Except.ok.injEq] at hiff
        constructor
        · rintro (hmem | heq)
          · exact (hiff.2 hmem).symm
          · cases heq
        · rintro rfl
          exact .inl (hiff.1 rfl)
      · intro s'
        constructor
        · rintro (hmem | heq)
          · obtain heq | ⟨_, heq⟩ := request_of_mem_metadata hk hmem <;> cases heq
          · cases heq
            rfl
        · rintro rfl
          exact .inr rfl

/-- When the versions are not known, one of the calls has failed, and they were not both told. -/
theorem ends_check_error {f : Failure} (hr : (check p).Ends h (.error f)) :
    (∃ e ∈ h, e.Failed) ∧ ∀ m s, advertisement p m ∈ h → committal p s ∉ h := by
  simp only [check, ends_bind] at hr
  obtain ⟨k, _, ⟨n, result⟩, rfl, hk, hr⟩ := hr
  cases result with
  | error g =>
    simp only [ends_pure] at hr
    obtain ⟨rfl, -⟩ := hr
    rw [List.append_nil]
    refine ⟨exists_failed_of_ends_withRetry hk, fun m s hm hs => ?_⟩
    cases (ends_withRetry_ok_iff hk m).2 hm
  | ok m =>
    simp only [ends_bind, ends_bounded, ends_pure] at hr
    obtain ⟨_, _, _, rfl, ⟨a, rfl, rfl⟩, rfl, heq⟩ := hr
    cases hres : boundedResult p "read versions" .persistence a with
    | ok s =>
      rw [hres] at heq
      cases heq
    | error g =>
      simp only [List.append_nil, List.mem_append, List.mem_singleton]
      refine ⟨⟨_, .inr rfl, failed_of_boundedResult hres⟩, fun m s _ hs => ?_⟩
      obtain hmem | heq := hs
      · obtain heq | ⟨_, heq⟩ := request_of_mem_metadata hk hmem <;> cases heq
      · cases heq
        cases hres

/-! ## The whole check -/

/-- What the check was told, and which kinds it has selected. -/
structure Surveyed (p : SyncPolicy) (h : List Exchange) (m : Metadata) (s : StoredVersions)
    (sels : List Selection) : Prop where
  /-- The metadata is the only one that the check was told. -/
  advertisement_mem : ∀ m', advertisement p m' ∈ h ↔ m' = m
  committal_mem : ∀ s', committal p s' ∈ h ↔ s' = s
  /-- Each kind is selected at most once, in processing order. -/
  kinds_sublist : (sels.map (·.kind)).Sublist DataKind.all
  faithful : ∀ sel ∈ sels, sel.Faithful p m s h
  /-- A kind that is not selected has lost nothing. -/
  intact : ∀ kind, kind ∉ sels.map (·.kind) → s.get kind = some (m.latest kind) ∧
    ∀ t ∈ p.targets kind, absence p t (m.latest kind) ∉ h
  /-- Every target of an unchanged version is looked up. -/
  looked_up : ∀ kind, s.get kind = some (m.latest kind) → ∀ t ∈ p.targets kind,
    ∃ a, ⟨.call (.exist (t.key (m.latest kind))) p.ioTimeout, a⟩ ∈ h
  /-- Nothing else is looked up. -/
  exists_of_lookup : ∀ key a, ⟨.call (.exist key) p.ioTimeout, a⟩ ∈ h →
    ∃ kind, ∃ t ∈ p.targets kind, key = t.key (m.latest kind)

/-- What is known when there is something to fetch. -/
structure Selected (p : SyncPolicy) (h : List Exchange) (m : Metadata) (s : StoredVersions)
    (sels : List Selection) (epoch : Epoch) (jobs : List Job) : Prop
    extends Surveyed p h m s sels where
  kinds_eq : epoch.kinds = sels.map Selection.report
  error_eq : epoch.error = none
  jobs_eq : jobs = sels.flatMap Selection.jobs
  ne_nil : sels ≠ []

/-- How a check ends. -/
inductive CheckEnd (p : SyncPolicy) (h : List Exchange) : Checked → Prop
  /-- The versions are not known. -/
  | failed {epoch : Epoch} (kinds_eq : epoch.kinds = [])
    (stopped : (epoch.error.isSome || epoch.cancelled) = true) (fault : ∃ e ∈ h, e.Failed)
    (untold : ∀ m s, advertisement p m ∈ h → committal p s ∉ h) : CheckEnd p h (.stopped epoch)
  /-- There is nothing to fetch. -/
  | idle {epoch : Epoch} {m : Metadata} {s : StoredVersions} (kinds_eq : epoch.kinds = [])
    (unstopped : (epoch.error.isSome || epoch.cancelled) = false)
    (surveyed : Surveyed p h m s []) : CheckEnd p h (.stopped epoch)
  | ready {epoch : Epoch} {jobs : List Job} {m : Metadata} {s : StoredVersions}
    {sels : List Selection} (selected : Selected p h m s sels epoch jobs) :
    CheckEnd p h (.ready epoch jobs)

theorem Surveyed.nodup_selected {sels : List Selection} (hs : Surveyed p h m s sels) :
    (sels.map (·.kind)).Nodup := hs.kinds_sublist.nodup (by decide)

theorem Selected.nodup_kinds {sels : List Selection} {epoch : Epoch} {jobs : List Job}
    (hs : Selected p h m s sels epoch jobs) : (epoch.kinds.map (·.kind)).Nodup := by
  rw [hs.kinds_eq, List.map_map]
  exact hs.nodup_selected

/-- The jobs of a kind are the targets that were selected for it. -/
theorem mem_flatMap_jobs_iff {sels : List Selection} (hnodup : (sels.map (·.kind)).Nodup)
    (hkinds : ∀ sel ∈ sels, ∀ target ∈ sel.targets, target.kind = sel.kind) {sel : Selection}
    (hsel : sel ∈ sels) {target : FetchTarget} {v : Version} (hkind : target.kind = sel.kind) :
    (target, v) ∈ sels.flatMap Selection.jobs ↔ v = sel.advertised ∧ target ∈ sel.targets := by
  rw [List.mem_flatMap]
  constructor
  · rintro ⟨other, hother, hjob⟩
    obtain ⟨target', htarget, heq⟩ := List.mem_map.1 hjob
    cases heq
    have hsame : other.kind = sel.kind := (hkinds other hother _ htarget).symm.trans hkind
    obtain rfl := List.inj_on_of_nodup_map hnodup hother hsel hsame
    exact ⟨rfl, htarget⟩
  · rintro ⟨rfl, htarget⟩
    exact ⟨sel, hsel, List.mem_map.2 ⟨target, htarget, rfl⟩⟩

theorem Selected.mem_jobs_iff {sels : List Selection} {epoch : Epoch} {jobs : List Job}
    (hs : Selected p h m s sels epoch jobs) {sel : Selection} (hsel : sel ∈ sels)
    {target : FetchTarget} {v : Version} (hkind : target.kind = sel.kind) :
    (target, v) ∈ jobs ↔ v = sel.advertised ∧ target ∈ sel.targets := by
  rw [hs.jobs_eq]
  exact mem_flatMap_jobs_iff hs.nodup_selected (fun other hother target ht =>
    SyncPolicy.kind_of_mem_targets ((hs.faithful other hother).sublist.subset ht)) hsel hkind

/-- Every job belongs to a kind that is reported. -/
theorem Selected.exists_report {sels : List Selection} {epoch : Epoch} {jobs : List Job}
    (hs : Selected p h m s sels epoch jobs) {target : FetchTarget} {v : Version}
    (hj : (target, v) ∈ jobs) :
    ∃ r ∈ epoch.kinds, r.kind = target.kind ∧ r.newVersion = v := by
  rw [hs.jobs_eq, List.mem_flatMap] at hj
  obtain ⟨sel, hsel, hjob⟩ := hj
  obtain ⟨target', htarget, heq⟩ := List.mem_map.1 hjob
  cases heq
  refine ⟨sel.report, ?_, ?_, rfl⟩
  · rw [hs.kinds_eq]
    exact List.mem_map_of_mem hsel
  · exact (SyncPolicy.kind_of_mem_targets ((hs.faithful sel hsel).sublist.subset htarget)).symm

theorem asks_checking {trigger : Trigger} (hr : (checking p trigger).Asks h r) :
    r.IsOfCheck p := by
  simp only [checking, asks_bind, asks_request, ends_request] at hr
  obtain ⟨-, rfl⟩ | ⟨_, _, now, rfl, -, ⟨-, rfl⟩ | ⟨_, _, _, rfl, -, hr⟩⟩ := hr
  · trivial
  · rfl
  obtain hr | ⟨_, _, result, rfl, -, hr⟩ := hr
  · exact asks_check hr
  rcases result with f | ⟨m, s⟩
  · cases f <;> simp at hr
  · simp only [asks_bind] at hr
    obtain hr | ⟨_, _, sels, rfl, -, hr⟩ := hr
    · obtain ⟨_, -, _, -, rfl⟩ := asks_selectKinds hr
      rfl
    · split at hr <;> simp at hr

/-- Once the check has seen a cancellation it makes no attempt. -/
theorem asks_checking_attempt {trigger : Trigger} {c : Call} {limit : Duration}
    (hr : (checking p trigger).Asks h (.attempt c limit)) :
    ∀ e ∈ h, e.showsCancellation = false := by
  simp only [checking, asks_bind, asks_request, ends_request] at hr
  obtain ⟨-, heq⟩ | ⟨_, _, now, rfl, rfl, ⟨-, heq⟩ | ⟨_, k, _, rfl, rfl, hr⟩⟩ := hr
  · cases heq
  · cases heq
  have hk : ∀ e ∈ k, e.showsCancellation = false := by
    obtain hr | ⟨_, _, result, rfl, -, hr⟩ := hr
    · simp only [check, asks_bind] at hr
      obtain hr | ⟨_, _, ⟨n, result⟩, rfl, -, hr⟩ := hr
      · exact (asks_withRetry hr).2
      · cases result with
        | error => simp at hr
        | ok =>
          simp only [asks_bind, asks_bounded, asks_pure, and_false, exists_false, or_false] at hr
          cases hr.2
    · rcases result with f | ⟨m, s⟩
      · cases f <;> simp at hr
      · simp only [asks_bind] at hr
        obtain hr | ⟨_, _, sels, rfl, -, hr⟩ := hr
        · obtain ⟨_, -, _, -, heq⟩ := asks_selectKinds hr
          cases heq
        · split at hr <;> simp at hr
  simpa [Exchange.showsCancellation] using hk

/-- No answer of a selection of kinds tells a version. -/
theorem exists_of_mem_selectKinds {ks : List DataKind} {sels : List Selection} {e : Exchange}
    (hr : (selectKinds p m s ks).Ends h sels) (he : e ∈ h) :
    ∃ key limit, e.request = .call (.exist key) limit := by
  obtain ⟨_, ha⟩ := Path.asks_of_mem hr he
  obtain ⟨k, -, t, -, heq⟩ := asks_selectKinds ha
  exact ⟨_, _, heq⟩

/-- Before it selects kinds, the check looks nothing up. -/
theorem not_exist_of_ends_check {result : Except Failure (Metadata × StoredVersions)}
    (hr : (check p).Ends h result) {e : Exchange} (he : e ∈ h) {key : CacheKey}
    {limit : Duration} : e.request ≠ .call (.exist key) limit := by
  intro heq
  simp only [check, ends_bind] at hr
  obtain ⟨k, _, ⟨n, advertised⟩, rfl, hk, hr⟩ := hr
  obtain he | he := List.mem_append.1 he
  · obtain hrequest | ⟨_, hrequest⟩ := request_of_mem_metadata hk he <;>
    · rw [heq] at hrequest
      cases hrequest
  · cases advertised with
    | error f =>
      simp only [ends_pure] at hr
      rw [hr.1] at he
      cases he
    | ok m =>
      simp only [ends_bind, ends_bounded, ends_pure] at hr
      obtain ⟨_, _, _, rfl, ⟨a, rfl, -⟩, rfl, -⟩ := hr
      obtain rfl := List.mem_singleton.1 (by simpa using he)
      cases heq

/-- The check has surveyed the kinds when it knows the versions and has selected for them. -/
theorem surveyed_of_ends (now : Timestamp) {c k : List Exchange} {sels : List Selection}
    (hc : (check p).Ends c (.ok (m, s))) (hk : (selectKinds p m s DataKind.all).Ends k sels) :
    Surveyed p (⟨.clock, now⟩ :: ⟨.publish .checking, ()⟩ :: (c ++ k)) m s sels := by
  obtain ⟨hadvertised, hcommitted⟩ := ends_check_ok hc
  obtain ⟨hsub, hall⟩ := ends_selectKinds (by decide) hk
  have hlookup : ∀ {key : CacheKey} {a : Option (Except Failure Bool)},
      (⟨.call (.exist key) p.ioTimeout, a⟩ : Exchange) ∈
        (⟨.clock, now⟩ :: ⟨.publish .checking, ()⟩ :: (c ++ k)) ↔
      ⟨.call (.exist key) p.ioTimeout, a⟩ ∈ k := by
    intro key a
    simp only [List.mem_cons, List.mem_append]
    constructor
    · rintro (heq | heq | hmem | hmem)
      · cases heq
      · cases heq
      · exact absurd rfl (not_exist_of_ends_check hc hmem)
      · exact hmem
    · exact fun hmem => .inr (.inr (.inr hmem))
  refine ⟨fun m' => ?_, fun s' => ?_, hsub, fun sel hsel => ?_, fun kind hkind => ?_,
    fun kind hsame t ht => ?_, fun key a hmem => ?_⟩
  · simp only [List.mem_cons, List.mem_append, ← hadvertised m']
    constructor
    · rintro (heq | heq | hmem | hmem)
      · cases heq
      · cases heq
      · exact hmem
      · obtain ⟨_, _, heq⟩ := exists_of_mem_selectKinds hk hmem
        cases heq
    · exact fun hmem => .inr (.inr (.inl hmem))
  · simp only [List.mem_cons, List.mem_append, ← hcommitted s']
    constructor
    · rintro (heq | heq | hmem | hmem)
      · cases heq
      · cases heq
      · exact hmem
      · obtain ⟨_, _, heq⟩ := exists_of_mem_selectKinds hk hmem
        cases heq
    · exact fun hmem => .inr (.inr (.inl hmem))
  · obtain ⟨hcommitted, hadvertised, hne, hsub, hmem⟩ := hall sel hsel
    exact ⟨hcommitted, hadvertised, hne, hsub, fun t => (hmem t).trans
      (and_congr_right fun _ => imp_congr_right fun _ => hlookup.symm)⟩
  · obtain ⟨hsame, habsent⟩ := intact_of_ends_selectKinds (by decide) hk kind.mem_all hkind
    exact ⟨hsame, fun t ht habs => habsent t ht (hlookup.1 habs)⟩
  · obtain ⟨a, ha⟩ := exists_of_ends_selectKinds hk kind.mem_all hsame t ht
    exact ⟨a, hlookup.2 ha⟩
  · obtain ⟨_, hasks⟩ := Path.asks_of_mem hk (hlookup.1 hmem)
    obtain ⟨kind, -, t, ht, heq⟩ := asks_selectKinds hasks
    cases heq
    exact ⟨kind, t, ht, rfl⟩

/-- **A check fails, finds nothing to fetch, or selects something.** -/
theorem ends_checking {trigger : Trigger} {checked : Checked}
    (hr : (checking p trigger).Ends h checked) : CheckEnd p h checked := by
  simp only [checking, ends_bind, ends_request] at hr
  obtain ⟨_, _, now, rfl, rfl, _, _, _, rfl, rfl, c, _, result, rfl, hcheck, hr⟩ := hr
  rcases result with f | ⟨m, s⟩
  · obtain ⟨⟨e, he, hfailed⟩, huntold⟩ := ends_check_error hcheck
    have hfault : ∃ e ∈ [(⟨.clock, now⟩ : Exchange)] ++ ([⟨.publish .checking, ()⟩] ++ (c ++ [])),
        e.Failed := ⟨e, by simp [he], hfailed⟩
    have huntold' : ∀ m s, advertisement p m ∈ [(⟨.clock, now⟩ : Exchange)] ++
        ([⟨.publish .checking, ()⟩] ++ (c ++ [])) → committal p s ∉ [(⟨.clock, now⟩ : Exchange)] ++
        ([⟨.publish .checking, ()⟩] ++ (c ++ [])) := by
      intro m s hm hs
      simp only [List.append_nil, List.cons_append, List.nil_append, List.mem_cons] at hm hs
      obtain heq | heq | hm := hm
      · cases heq
      · cases heq
      obtain heq | heq | hs := hs
      · cases heq
      · cases heq
      · exact huntold m s hm hs
    cases f
    all_goals
      simp only [ends_pure] at hr
      obtain ⟨rfl, rfl⟩ := hr
      exact .failed rfl rfl hfault huntold'
  · simp only [ends_bind] at hr
    obtain ⟨k, _, sels, rfl, hsels, hr⟩ := hr
    have hsurveyed := surveyed_of_ends now hcheck hsels
    by_cases hempty : sels.isEmpty
    · simp only [hempty, if_true, ends_pure] at hr
      obtain ⟨rfl, rfl⟩ := hr
      obtain rfl := List.isEmpty_iff.1 hempty
      exact .idle rfl rfl (by simpa using hsurveyed)
    · simp only [hempty, Bool.false_eq_true, if_false, ends_pure] at hr
      obtain ⟨rfl, rfl⟩ := hr
      refine .ready (m := m) (s := s) ⟨?_, rfl, rfl, rfl, by simpa using hempty⟩
      simpa using hsurveyed

theorem ends_checking_ready {trigger : Trigger} {epoch : Epoch} {jobs : List Job}
    (hr : (checking p trigger).Ends h (.ready epoch jobs)) :
    ∃ m s sels, Selected p h m s sels epoch jobs := by
  cases ends_checking hr with
  | ready selected => exact ⟨_, _, _, selected⟩

/-- There is nothing to fetch in an epoch that stops after the check. -/
theorem ends_checking_stopped {trigger : Trigger} {epoch : Epoch}
    (hr : (checking p trigger).Ends h (.stopped epoch)) : epoch.kinds = [] := by
  cases ends_checking hr with
  | failed kinds_eq => exact kinds_eq
  | idle kinds_eq => exact kinds_eq

end Engine

end ContentSync
