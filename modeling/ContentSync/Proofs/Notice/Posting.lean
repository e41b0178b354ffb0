import ContentSync.Notice.Webhook
import ContentSync.Proofs.Url.Join

/-!
# Where events are posted

The webhook divides its address into the origin, for which it makes a client, and what follows, which it
hands to the client with every event. The client puts both together again.

* `ApiClient.create_origin` — the client that is made for an origin;
* `Webhook.Posts`, `Webhook.posts_iff` — a request posts an event if the answer to it, whatever it is,
  tells what becomes of the event;
* `Webhook.target_of_create` — what a webhook keeps of its address;
* `Webhook.posts_samePlace_iff` — which addresses events are posted to.
-/

set_option autoImplicit false

namespace ContentSync

namespace ApiClient

variable {u : Url} {a : Authority} {token : Option String} {c : ApiClient} {cs : List Char}

/-- An origin gets the slash that it lacks. -/
theorem normalize_origin (hweb : u.IsWeb) (ha : u.authority = some a) :
    normalize u.origin = u.origin ++ "/" := by
  obtain ⟨b, hb, hfound, -⟩ := hweb.authority
  obtain rfl : b = a := Option.some.inj (hb.symm.trans ha)
  have htext : u.origin.toList = u.scheme.toList ++ [':', '/', '/'] ++ b.machine.toList := by
    simp [hweb.origin_eq ha]
  have hplain : ∀ c ∈ b.machine.toList, Host.IsPlainChar c := fun c hc =>
    Url.isPlainChar_of_mem_machine hfound hc
  have hvisible : ∀ c ∈ u.origin.toList, 0x20 < c.toNat ∧ c.toNat < 0x80 := by
    rw [htext]
    exact fun c hc => (List.mem_append.1 hc).elim (hweb.scheme.visible c) fun hc => ⟨(hplain c hc).1, (hplain c hc).2.1⟩
  have hne : b.machine.toList ≠ [] := by
    rw [Url.toList_machine]
    simp [Host.text_ne_nil hfound]
  have hlast : u.origin.toList.getLast? ≠ some '/' := by
    rw [htext, List.getLast?_append_of_ne_nil _ hne]
    exact fun h => absurd (hplain '/' (List.mem_of_getLast? h)) (by decide)
  have hblank : ∀ c ∈ u.origin.toList, Text.isBlank c = false := fun c hc =>
    Text.not_blank_of_visible (hvisible c hc)
  have htrim : Text.trimChars u.origin.toList = u.origin.toList := by
    have hnonempty : u.origin.toList ≠ [] := by simp [htext]
    simpa [Text.dropEndWhile_eq] using Text.trimChars_append hnonempty
      (fun c hc => hblank c (List.mem_of_head? hc)) (fun c hc => hblank c (List.mem_of_getLast? hc)) []
  rw [normalize, htrim, if_neg hlast,
    String.ofList_append, String.ofList_toList]

/-- The client that is made for an origin. -/
theorem create_origin (hweb : u.IsWeb) (ha : u.authority = some a) (h : create u.origin token = .ok c) :
    c = ⟨u.base a, token⟩ := by
  unfold create at h
  rw [normalize_origin hweb ha] at h
  split at h
  · next base hbase =>
    cases h
    exact congrArg (ApiClient.mk · token) (Url.parse_origin hweb ha hbase)
  · cases h

end ApiClient

namespace Webhook

variable {s : NotifySettings} {w : Webhook} {e : Event} {r : HttpRequest} {c : ApiClient}
  {path address : String}

/-- What the answer to a message that was posted to a path means. -/
def received (path : String) : Except Interruption HttpAnswer → Except Failure Unit
  | .error e => .error (e.failure path)
  | .ok answer =>
    if answer.success then .ok () else .error (.status answer.status (answer.text?.getD ""))

/-- A request posts an event if the answer to it, whatever it is, tells what becomes of the event. -/
def Posts (w : Webhook) (e : Event) (r : HttpRequest) : Prop :=
  ∃ path, ∀ network : Network, w.deliver network e = received path (network r)

/-- An answer without a body. -/
def bare (status : Nat) : HttpAnswer := ⟨status, [], .ok []⟩

theorem received_success (path : String) : received path (.ok (bare 200)) = .ok () := rfl

theorem received_failure (path : String) : received path (.ok (bare 500)) ≠ .ok () := by
  intro h
  cases h

/-- What becomes of an event depends on what is prepared and on the answer to it. -/
theorem deliver_eq (hskips : w.skips e = false) (htarget : w.target = some (c, path)) (network : Network) :
    w.deliver network e =
      (c.prepare "POST" path [] (some (Embed.ofEvent e).message)).bind fun r =>
        received path (r.send network) := by
  rw [deliver, if_neg (by simp [hskips]), htarget]
  dsimp only [ApiClient.postDiscard, bind, Except.bind]
  cases c.prepare "POST" path [] (some (Embed.ofEvent e).message) with
  | error => rfl
  | ok r =>
    dsimp only
    cases r.send network with
    | error => rfl
    | ok answer =>
      dsimp only [received]
      split <;> rfl

/-- Nothing but the request that is prepared posts the event, and only if it can be sent. -/
theorem posts_iff (hskips : w.skips e = false) (htarget : w.target = some (c, path)) :
    w.Posts e r ↔
      c.prepare "POST" path [] (some (Embed.ofEvent e).message) = .ok r ∧ r.sendable = true := by
  unfold Posts
  simp only [deliver_eq hskips htarget]
  constructor
  · rintro ⟨path', hposts⟩
    -- an answer of success would be no news if nothing were sent
    have hsuccess := hposts fun _ => .ok (bare 200)
    rw [received_success] at hsuccess
    cases hprepared : c.prepare "POST" path [] (some (Embed.ofEvent e).message) with
    | error => simp [hprepared, Except.bind] at hsuccess
    | ok q =>
      rw [hprepared] at hsuccess hposts
      by_cases hsend : q.sendable = true
      · -- and success for one request alone shows which one is sent
        classical
        have honly := hposts fun p => if p = r then .ok (bare 200) else .ok (bare 500)
        have heq : q = r := by
          by_contra hne
          rw [if_pos rfl, received_success] at honly
          simp only [Except.bind, HttpRequest.send, hsend, if_true, if_neg hne] at honly
          exact received_failure path honly
        exact ⟨congrArg _ heq, heq ▸ hsend⟩
      · simp [Except.bind, HttpRequest.send, hsend, received] at hsuccess
  · rintro ⟨hprepared, hsend⟩
    refine ⟨path, fun network => ?_⟩
    rw [hprepared]
    simp only [Except.bind, HttpRequest.send, hsend, if_true]

/-- What a webhook keeps of its address. -/
theorem target_of_create (hs : s.webhookUrl = some address) (hw : create s = .ok w) :
    isWebAddress address = true ∧ ∃ u client, Url.parse address = .ok u ∧
      ApiClient.create u.origin none = .ok client ∧ w.target = some (client, u.afterOrigin) := by
  unfold create NotifySettings.check at hw
  rw [hs] at hw
  dsimp only at hw
  cases haddress : isWebAddress address with
  | false => simp [haddress, demand, Except.mapError, bind, Except.bind] at hw
  | true =>
    refine ⟨rfl, ?_⟩
    cases hparsed : Url.parse address with
    | error => simp [haddress, hparsed, demand, Except.mapError, bind, Except.bind] at hw
    | ok u =>
      cases hclient : ApiClient.create u.origin none with
      | error => simp [haddress, hparsed, hclient, demand, Except.mapError, bind, Except.bind] at hw
      | ok client =>
        simp only [haddress, hparsed, hclient, demand, Except.mapError, bind, Except.bind, pure,
          Except.pure, if_true, Except.ok.injEq] at hw
        exact ⟨u, client, rfl, hclient, hw ▸ rfl⟩

/-- A message that is not shown any token can be sent to an address of the web. -/
theorem prepare_eq_ok_iff {base : Url} {body : Json} :
    ApiClient.prepare ⟨base, none⟩ "POST" path [] (some body) = .ok r ↔
      base.join (ApiClient.relativePath path) = .ok r.url ∧
        r = ⟨"POST", r.url, [("Content-Type", "application/json")], some body⟩ := by
  unfold ApiClient.prepare ApiClient.address
  dsimp only
  cases base.join (ApiClient.relativePath path) with
  | error => simp [Except.map]
  | ok url =>
    simp only [Except.map, Except.ok.injEq]
    constructor
    · rintro rfl
      exact ⟨rfl, rfl⟩
    · rintro ⟨rfl, h⟩
      rw [h]
      rfl

/-- **Which addresses events are posted to.** An event that is not skipped is posted to the same place as
the address names exactly if the path is found again after it was divided from the origin. -/
theorem posts_samePlace_iff (hs : s.webhookUrl = some address) (hw : create s = .ok w)
    (hskips : w.skips e = false) :
    ∃ u names, Url.parse address = .ok u ∧ u.path = .names names ∧
      ((∃ r, w.Posts e r ∧ r.method = "POST" ∧ r.body = some (Embed.ofEvent e).message ∧
        r.url.SamePlace u) ↔ Url.Rejoins names) := by
  obtain ⟨haddress, u, client, hparsed, hclient, htarget⟩ := target_of_create hs hw
  have hweb : u.IsWeb := Url.isWeb_of_parse haddress hparsed
  obtain ⟨a, ha, -⟩ := hweb.authority
  obtain ⟨names, -, hpath, -⟩ := hweb.path
  obtain rfl := ApiClient.create_origin hweb ha hclient
  refine ⟨u, names, hparsed, hpath, ?_⟩
  rw [← Url.samePlace_join_iff hweb ha hpath]
  simp only [posts_iff hskips htarget, prepare_eq_ok_iff]
  constructor
  · rintro ⟨r, ⟨⟨hjoin, -⟩, -⟩, -, -, hsame⟩
    exact ⟨r.url, hjoin, hsame⟩
  · rintro ⟨v, hjoin, hsame⟩
    refine ⟨⟨"POST", v, [("Content-Type", "application/json")], some (Embed.ofEvent e).message⟩,
      ⟨⟨hjoin, rfl⟩, ?_⟩, rfl, rfl, hsame⟩
    have hscheme : v.scheme = "http" ∨ v.scheme = "https" := hsame.scheme ▸ hweb.scheme
    have hheader : HttpRequest.isHeaderValue "application/json" = true := by decide
    simp [HttpRequest.sendable, hscheme, hheader]

/-- An address in which nothing is lost. -/
theorem posts_samePlace_iff_hook :
    let s : NotifySettings := ⟨some "http://localhost/hook?wait=true", false⟩
    let news : Event := ⟨"Content updated", "", .success, .success, [], [], ⟨1718000000, 0⟩⟩
    ∃ w u, create s = .ok w ∧ w.skips news = false ∧
      Url.parse "http://localhost/hook?wait=true" = .ok u ∧
      ∃ r, w.Posts news r ∧ r.method = "POST" ∧ r.body = some (Embed.ofEvent news).message ∧
        r.url.SamePlace u := by
  intro s news
  obtain ⟨w, hw⟩ : ∃ w, create s = .ok w :=
    (Option.isSome_iff_exists.1 (by decide +kernel)).imp fun _ => ok_of_toOption
  have hparsed : (Url.parse "http://localhost/hook?wait=true").toOption.map Url.path =
      some (.names ["hook"]) := by decide +kernel
  obtain ⟨u, names, hu, hpath, hposts⟩ :=
    posts_samePlace_iff (s := s) (e := news) rfl hw (by simp [skips, news])
  have hnames : names = ["hook"] := by
    rw [hu, Except.toOption, Option.map_some, hpath] at hparsed
    exact UrlPath.names.inj (Option.some.inj hparsed)
  refine ⟨w, u, hw, by simp [skips, news], hu, hposts.2 ?_⟩
  exact hnames ▸ .inr ⟨"hook", [], rfl, by decide, by decide⟩

/-- **An event may be posted nowhere**, though there is an address and the event is not skipped. -/
theorem posts_nowhere :
    let s : NotifySettings := ⟨some "http://localhost/http://", false⟩
    let news : Event := ⟨"Content updated", "", .success, .success, [], [], ⟨1718000000, 0⟩⟩
    ∃ w, create s = .ok w ∧ w.skips news = false ∧ ∀ r, ¬ w.Posts news r := by
  intro s news
  obtain ⟨w, hw⟩ : ∃ w, create s = .ok w :=
    (Option.isSome_iff_exists.1 (by decide +kernel)).imp fun _ => ok_of_toOption
  have hrefused : ((create s).bind fun w => w.deliver (fun _ => .ok (bare 200)) news).toOption = none := by
    decide +kernel
  refine ⟨w, hw, by simp [skips, news], ?_⟩
  rintro r ⟨path, hposts⟩
  rw [hw, Except.bind, hposts, received_success] at hrefused
  cases hrefused

end Webhook

end ContentSync
