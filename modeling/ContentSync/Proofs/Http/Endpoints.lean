import ContentSync.Proofs.Url.Join
import ContentSync.Proofs.Url.Slash
import ContentSync.Service.Client

/-!
# Where the content service is asked

Every call goes to a path below the address of the service. The address gets a slash at its end before it
is read, and what a call asks for takes the place of what follows the last slash of the path.

* `Url.join_name` — a name that is joined to an address;
* `ApiClient.normalize_eq` — the text of which the address of a client is read;
* `ContentService.ask_eq` — what becomes of a call depends on the answer to one request;
* `ContentService.endpoint_appended_iff` — when a call goes to a path below the one of the address.
-/

set_option autoImplicit false

namespace ContentSync

namespace Url

variable {b : Url} {names more : List String} {name : String}

/-- A name takes the place of the last one. -/
theorem join_name (hscheme : IsWebScheme b.scheme) (hpath : b.path = .names names) (hname : IsName name)
    (hne : name ≠ "") (hnone : scheme? name.toList = none) :
    join b (ApiClient.relativePath name) =
      .ok { b with path := .names (names.dropLast ++ [name]), query := none, fragment := none } := by
  have hrelative : ApiClient.relativePath name = name := by
    have hstart : ∀ c ∈ name.toList.head?, (c == '/') = false := fun c hc =>
      Bool.eq_false_iff.2 fun h => by
        have hslash := hname.unslashed c (List.mem_of_head? hc)
        rw [eq_of_beq h] at hslash
        exact absurd hslash (by decide)
    rw [ApiClient.relativePath, Text.dropWhile_eq_self hstart, String.ofList_toList]
  have hplain : ∀ c ∈ name.toList, 0x20 < c.toNat ∧ c ≠ '#' ∧ c ≠ '?' := fun c hc =>
    of_not_escapes_path (hname.plain c hc)
  have hreference : Reference.ofText name = ⟨name.toList, none, none⟩ := by
    rw [Reference.ofText, Reference.clean_eq_self fun c hc => (hplain c hc).1]
    exact Reference.ofChars_unmarked (fun h => (hplain _ h).2.1 rfl) fun h => (hplain _ h).2.2 rfl
  have hextend : extend b.scheme names.dropLast name.toList = .names (names.dropLast ++ [name]) := by
    rw [extend, hscheme.isSlash, Text.parts_eq_singleton hname.unslashed]
    exact congrArg UrlPath.names (addName_of_isName hscheme hname)
  rw [hrelative, join_unschemed hscheme hpath hreference (mt String.toList_eq_nil_iff.1 hne)
    (fun c hc => hname.unslashed c (List.mem_of_head? hc)) hnone, ← hextend]
  rfl

/-- The text of a path tells its names. -/
theorem text_names_inj (hnames : ∀ n ∈ names, IsName n) (hmore : ∀ n ∈ more, IsName n) :
    (UrlPath.names names).text = (UrlPath.names more).text ↔ names = more := by
  refine ⟨fun h => ?_, fun h => h ▸ rfl⟩
  have hread : ∀ l : List String, (∀ n ∈ l, IsName n) →
      Text.parts isAnySlash ((UrlPath.names l).text.toList) = ("" :: l).map String.toList := fun l hl =>
    parts_cons_names rfl (List.forall_mem_cons.2 ⟨isName_empty.unslashed, fun n hn => (hl n hn).unslashed⟩)
  have heq : (("" :: names).map String.toList) = ("" :: more).map String.toList := by
    rw [← hread names hnames, ← hread more hmore, h]
  exact (List.cons.inj (List.map_injective_iff.2 (fun _ _ => String.toList_inj.1) heq)).2

/-- A name follows the last slash of what has the names before it. -/
theorem text_concat_eq_iff (hnames : ∀ n ∈ names, IsName n) (hmore : ∀ n ∈ more, IsName n) :
    (UrlPath.names (more ++ [name])).text = slashed (UrlPath.names names).text ++ name ↔
      more ++ [""] = closed names := by
  have hname : (UrlPath.names (more ++ [name])).text = (UrlPath.names (more ++ [""])).text ++ name := by
    rw [← String.toList_inj, String.toList_append, toList_text_concat, toList_text_concat, List.append_assoc]
    rfl
  have hadd : ∀ {l : List String}, (∀ n ∈ l, IsName n) → ∀ n ∈ l ++ [""], IsName n := fun hl n hn =>
    (List.mem_append.1 hn).elim (hl n) fun hn => List.mem_singleton.1 hn ▸ isName_empty
  have hclosed : ∀ n ∈ closed names, IsName n := by
    unfold closed
    split
    · exact hnames
    · exact hadd hnames
  rw [hname, ← text_closed hnames, ← text_names_inj (hadd hmore) hclosed, ← String.toList_inj,
    String.toList_append, String.toList_append, List.append_cancel_right_eq, String.toList_inj]

end Url

namespace ApiClient

/-- The address of a client is read from the text without blanks around it and with a slash at its end. -/
theorem normalize_eq (address : String) : normalize address = Url.slashed (Text.trim address) := by
  rw [normalize, Url.slashed, Text.trim, String.toList_ofList, String.ofList_append]

/-- An address of the web is still one without the blanks around it, and the last character counts. -/
theorem trim_web {address : String} (h : isWebAddress address = true) :
    isWebAddress (Text.trim address) = true ∧
      ∀ c ∈ (Text.trim address).toList.getLast?, Reference.counts c = true := by
  obtain ⟨scheme, tail, hscheme, htext⟩ := Url.toList_of_isWebAddress h
  have hfront : ∀ c ∈ scheme.toList ++ [':', '/', '/'], Text.isBlank c = false := fun c hc =>
    Text.not_blank_of_visible (hscheme.visible c hc)
  have htrim : (Text.trim address).toList =
      scheme.toList ++ [':', '/', '/'] ++ Text.dropEndWhile Text.isBlank tail := by
    have hsplit : address.toList = scheme.toList ++ [':', '/', '/'] ++ tail := by simp [htext]
    rw [Text.trim, String.toList_ofList, hsplit]
    exact Text.trimChars_append (by simp) (fun c hc => hfront c (List.mem_of_head? hc))
      (fun c hc => hfront c (List.mem_of_getLast? hc)) tail
  refine ⟨Url.isWebAddress_of_toList hscheme (htrim.trans (List.append_assoc _ _ _)), fun c hc => ?_⟩
  refine Reference.counts_of_not_blank ?_
  rw [htrim] at hc
  by_cases hempty : Text.dropEndWhile Text.isBlank tail = []
  · rw [hempty, List.append_nil] at hc
    exact hfront c (List.mem_of_getLast? hc)
  · rw [List.getLast?_append_of_ne_nil _ hempty, List.getLast?_eq_getLast_of_ne_nil hempty] at hc
    obtain rfl := Option.some.inj hc
    exact Bool.eq_false_iff.2 (List.rdropWhile_last_not Text.isBlank tail hempty)

end ApiClient

namespace ContentService

variable {s : ServiceSettings} {service : ContentService} {r : HttpRequest}

/-- What the answer to a call means. -/
def answered {α : Type} (read : Written → Option α) (call : ServiceCall) :
    Except Interruption HttpAnswer → Except Failure α
  | .error e => .error (e.failure call.endpoint)
  | .ok answer => (ApiClient.interpret read call.endpoint answer).bind ApiAnswer.result

/-- What becomes of a call depends on the answer to the request that is prepared. -/
theorem ask_eq {call : ServiceCall} (h : service.client.prepare "POST" call.endpoint []
      (some (call.envelope service.includePveUnits)) = .ok r) {α : Type} (network : Network)
    (read : Written → Option α) : service.ask network read call = answered read call (r.send network) := by
  rw [ask, ApiClient.postJson, ApiClient.request, h]
  simp only [bind, Except.bind]
  cases r.send network with
  | error => rfl
  | ok answer => rfl

/-- What a service is made of. -/
theorem client_of_create (h : create s = .ok service) :
    isWebAddress s.baseUrl = true ∧ ∃ v, Url.parse (Url.slashed (Text.trim s.baseUrl)) = .ok v ∧
      service.client = ⟨v, s.accessKey⟩ := by
  unfold create at h
  cases hcheck : s.check with
  | error => simp [hcheck, Except.mapError, bind, Except.bind] at h
  | ok =>
    have haddress : isWebAddress s.baseUrl = true := by
      by_contra hnot
      simp [ServiceSettings.check, demand, hnot, bind, Except.bind] at hcheck
    refine ⟨haddress, ?_⟩
    unfold ApiClient.create at h
    rw [ApiClient.normalize_eq] at h
    cases hparse : Url.parse (Url.slashed (Text.trim s.baseUrl)) with
    | error => simp [hcheck, hparse, Except.mapError, bind, Except.bind] at h
    | ok v =>
      simp only [hcheck, hparse, Except.mapError, bind, Except.bind, pure, Except.pure, Except.ok.injEq] at h
      exact ⟨v, rfl, h ▸ rfl⟩

/-- The endpoints are plain names. -/
theorem isName_endpoint (call : ServiceCall) :
    Url.IsName call.endpoint ∧ call.endpoint ≠ "" ∧ Url.scheme? call.endpoint.toList = none := by
  have hname : ∀ name ∈ ["metadata", "data", "localization", "player"],
      (name.toList.all fun c => EscapeSet.path.escapes c = false ∧ Url.isAnySlash c = false) = true ∧
        Url.isDot name.toList = false ∧ Url.isDoubleDot name.toList = false ∧ name ≠ "" ∧
          Url.scheme? name.toList = none := by decide
  have hcall : call.endpoint ∈ ["metadata", "data", "localization", "player"] := by
    cases call <;> simp [ServiceCall.endpoint]
  obtain ⟨hchars, hdot, hdouble, hne, hnone⟩ := hname _ hcall
  have hplain := List.all_iff_forall_prop.1 hchars
  exact ⟨⟨fun c hc => (hplain c hc).1, fun c hc => (hplain c hc).2, hdot, hdouble⟩, hne, hnone⟩

/-- **When a call goes to a path below the one of the address.** -/
theorem endpoint_appended_iff (h : create s = .ok service) (call : ServiceCall) :
    ∃ (u : Url) (r : HttpRequest), Url.parse (Text.trim s.baseUrl) = .ok u ∧
      service.client.prepare "POST" call.endpoint [] (some (call.envelope service.includePveUnits)) = .ok r ∧
      (∀ (α : Type) (network : Network) (read : Written → Option α),
        service.ask network read call = answered read call (r.send network)) ∧
      r.url.scheme = u.scheme ∧ r.url.authority = u.authority ∧ r.url.query = none ∧ r.url.fragment = none ∧
      (r.url.path.text = Url.slashed u.path.text ++ call.endpoint ↔
        Url.KeepsPath (Text.trim s.baseUrl) u) := by
  obtain ⟨haddress, v, hv, hclient⟩ := client_of_create h
  obtain ⟨hweb, hcounts⟩ := ApiClient.trim_web haddress
  obtain ⟨u, hu, hscheme, hauthority, names, more, hnames, hmore, hiff⟩ := Url.exists_compared hweb hcounts hv
  obtain ⟨hname, hne, hnone⟩ := isName_endpoint call
  have hwebV := Url.isWeb_of_parse (Url.isWebAddress_slashed hweb) hv
  have hjoin := Url.join_name hwebV.scheme hmore hname hne hnone
  have hprepare : ∃ r, service.client.prepare "POST" call.endpoint []
      (some (call.envelope service.includePveUnits)) = .ok r ∧
        r.url = { v with
          path := .names (more.dropLast ++ [call.endpoint]), query := none, fragment := none } := by
    unfold ApiClient.prepare ApiClient.address
    rw [hclient, hjoin]
    exact ⟨_, rfl, rfl⟩
  obtain ⟨r, hr, hurl⟩ := hprepare
  refine ⟨u, r, hu, hr, fun α network read => ask_eq hr network read, ?_⟩
  rw [hurl, ← hiff]
  refine ⟨hscheme.symm, hauthority.symm, rfl, rfl, ?_⟩
  obtain ⟨names', -, hpathU, hnamesU⟩ := (Url.isWeb_of_parse hweb hu).path
  obtain ⟨more', -, hpathV, hnamesV⟩ := hwebV.path
  obtain rfl := UrlPath.names.inj (hnames.symm.trans hpathU)
  obtain rfl := UrlPath.names.inj (hmore.symm.trans hpathV)
  rw [hnames]
  exact Url.text_concat_eq_iff hnamesU fun n hn => hnamesV n (List.mem_of_mem_dropLast hn)

/-- An address with a path, after which there is a blank. -/
theorem endpoint_appended_iff_api :
    let s : ServiceSettings := { ServiceSettings.default with baseUrl := "http://comlink:3000/api " }
    ∃ (service : ContentService) (u : Url) (r : HttpRequest), create s = .ok service ∧
      Url.parse "http://comlink:3000/api" = .ok u ∧
      (∀ (α : Type) (network : Network) (read : Written → Option α),
        service.ask network read .metadata = answered read .metadata (r.send network)) ∧
      r.url.scheme = u.scheme ∧ r.url.authority = u.authority ∧
      r.url.path.text = Url.slashed u.path.text ++ "metadata" := by
  intro s
  obtain ⟨service, hservice⟩ : ∃ service, create s = .ok service :=
    (Option.isSome_iff_exists.1 (by decide +kernel)).imp fun _ => ok_of_toOption
  have htrim : Text.trim s.baseUrl = "http://comlink:3000/api" := by decide +kernel
  have hparsed : (Url.parse "http://comlink:3000/api").toOption.map (fun u => (u.query, u.fragment)) =
      some (none, none) := by decide +kernel
  have hlast : "http://comlink:3000/api".toList.getLast? = some 'i' := by decide +kernel
  obtain ⟨u, r, hu, -, hask, hscheme, hauthority, -, -, hiff⟩ := endpoint_appended_iff hservice .metadata
  rw [htrim] at hu hiff
  have hmarks : u.query = none ∧ u.fragment = none := by simpa [hu, Except.toOption] using hparsed
  have hkeeps : Url.KeepsPath "http://comlink:3000/api" u := by
    rw [Url.KeepsPath, if_pos hmarks, hlast]
    rintro c ⟨⟩
    decide
  exact ⟨service, u, r, hservice, hu, hask, hscheme, hauthority, hiff.2 hkeeps⟩

/-- **The path of an address may be replaced**, as it is if the address has a query. -/
theorem endpoint_replaces_path :
    let s : ServiceSettings := { ServiceSettings.default with baseUrl := "http://comlink:3000/api?v=1" }
    ∃ (service : ContentService) (u : Url) (r : HttpRequest), create s = .ok service ∧
      Url.parse "http://comlink:3000/api?v=1" = .ok u ∧
      (∀ (α : Type) (network : Network) (read : Written → Option α),
        service.ask network read .metadata = answered read .metadata (r.send network)) ∧
      Url.slashed u.path.text ++ "metadata" = "/api/metadata" ∧ r.url.path.text = "/metadata" := by
  intro s
  have hparsed : (Url.parse "http://comlink:3000/api?v=1").toOption.map
      (fun u => Url.slashed u.path.text ++ "metadata") = some "/api/metadata" := by decide +kernel
  have hprepared : ((create s).toOption.bind fun service => (service.client.prepare "POST" "metadata" []
      (some (ServiceCall.metadata.envelope service.includePveUnits))).toOption.map
        fun r => r.url.path.text) = some "/metadata" := by decide +kernel
  obtain ⟨u, hu, hpath⟩ := Option.map_eq_some_iff.1 hparsed
  obtain ⟨service, hservice, hprepared⟩ := Option.bind_eq_some_iff.1 hprepared
  obtain ⟨r, hr, hreplaced⟩ := Option.map_eq_some_iff.1 hprepared
  exact ⟨service, u, r, ok_of_toOption hservice, ok_of_toOption hu,
    fun α network read => ask_eq (ok_of_toOption hr) network read, hpath, hreplaced⟩

end ContentService

end ContentSync
