import ContentSync.Proofs.Text.Escapes
import ContentSync.Proofs.Url.Web
import ContentSync.Settings.Endpoints

/-!
# The server that the address of the cache means

The address of the cache is put together from a host, a port and a password. The password stands in it as
it is, so the address means the server that was meant only if the password has nothing that ends the
server's part of an address, and nothing that is decoded.

* `Destination` — a server and a password;
* `Destination.ofAddress?` — what an address means, as addresses are commonly read;
* `CacheSettings.address_of_ends` — a password that ends the server's part says itself which server is meant;
* `CacheSettings.address_means_iff` — when the address means the server that was meant.
-/

set_option autoImplicit false

namespace ContentSync

/-! ## Reading an address -/

/-- A server to which a connection is made, and the password that it asks for. -/
structure Destination where
  host : String
  portNumber : Option Nat
  password : Option String
  deriving DecidableEq, Repr

namespace Destination

/-- Whether a character ends the part of an address that names the server. -/
def ends (c : Char) : Bool := c == '/' || c == '?' || c == '#'

/-- What the part of an address means that names the server. The password stands between the first colon
and the last `@` and is decoded. -/
def ofAuthority? (cs : List Char) : Option Destination := do
  let (who, machine) := Url.userinfo cs
  let (host, number) := Reference.divide ':' machine
  let portNumber ← number.mapM (Host.digits? 10)
  let password ← ((Reference.divide ':' (who.getD [])).2.map String.ofList).mapM Text.decodeText?
  some ⟨String.ofList host, portNumber, password⟩

/-- What an address means. -/
def ofAddress? (address : String) : Option Destination :=
  match Url.scheme? address.toList with
  | some ("redis", '/' :: '/' :: rest) => ofAuthority? (rest.takeWhile fun c => !ends c)
  | _ => none

variable {host password : String} {portNumber : Nat} {cs : List Char}

/-- A host whose text has none of the marks of an address, such as a name or an address of version 4. -/
def IsHost (host : String) : Prop := ∀ c ∈ host.toList, ends c = false ∧ c ≠ '@' ∧ c ≠ ':'

instance (host : String) : Decidable (IsHost host) :=
  List.decidableBAll (fun c => ends c = false ∧ c ≠ '@' ∧ c ≠ ':') host.toList

/-- No mark of an address stands in a host or a port. -/
theorem of_mem_machine (hhost : IsHost host) {c : Char}
    (hc : c ∈ host.toList ++ ':' :: Nat.toDigits 10 portNumber) : ends c = false ∧ c ≠ '@' := by
  obtain hc | hc := List.mem_append.1 hc
  · exact ⟨(hhost c hc).1, (hhost c hc).2.1⟩
  · obtain rfl | hc := List.mem_cons.1 hc
    · decide
    · obtain ⟨d, hd, rfl⟩ := Host.digit_of_mem_toDigits (by omega) hc
      have hall : ∀ d < 10, ends d.digitChar = false ∧ d.digitChar ≠ '@' := by decide
      exact hall d hd

theorem ofAuthority?_eq {who : Option (List Char)} (hhost : IsHost host)
    (h : Url.userinfo cs = (who, host.toList ++ ':' :: Nat.toDigits 10 portNumber)) :
    ofAuthority? cs =
      (((Reference.divide ':' (who.getD [])).2.map String.ofList).mapM Text.decodeText?).map
        fun password => ⟨host, some portNumber, password⟩ := by
  have hcolon : ':' ∉ host.toList := fun hmem => (hhost ':' hmem).2.2 rfl
  simp only [ofAuthority?, h, Reference.divide_append hcolon, Option.mapM_some,
    Host.digits?_toDigits (by omega : 1 < 10) (by omega), String.ofList_toList]
  cases ((Reference.divide ':' (who.getD [])).2.map String.ofList).mapM Text.decodeText? <;> rfl

theorem ofAuthority?_machine (hhost : IsHost host) (portNumber : Nat) :
    ofAuthority? (host.toList ++ ':' :: Nat.toDigits 10 portNumber) =
      some ⟨host, some portNumber, none⟩ :=
  ofAuthority?_eq hhost (Url.userinfo_of_not_mem fun hmem => (of_mem_machine hhost hmem).2 rfl)

theorem ofAuthority?_password (hhost : IsHost host) (portNumber : Nat) (password : List Char) :
    ofAuthority? (':' :: (password ++ '@' :: (host.toList ++ ':' :: Nat.toDigits 10 portNumber))) =
      (Text.decodeText? (String.ofList password)).map fun decoded =>
        ⟨host, some portNumber, some decoded⟩ := by
  have hdivide : Reference.divide ':' (':' :: password) = ([], some password) :=
    Reference.divide_append (List.not_mem_nil) password
  rw [← List.cons_append, ofAuthority?_eq hhost
    (Url.userinfo_append fun hmem => (of_mem_machine hhost hmem).2 rfl), Option.getD_some, hdivide]
  cases h : Text.decodeText? (String.ofList password) <;> simp [h]

/-- The password of a server is no longer than the text in which it stands. -/
theorem length_password_le {front : List Char} {d : Destination}
    (h : ofAuthority? (':' :: front) = some d) (hpassword : d.password = some password) :
    (Text.utf8Bytes password).length ≤ (Text.utf8Bytes (String.ofList front)).length := by
  have hread : ((Reference.divide ':' ((Url.userinfo (':' :: front)).1.getD [])).2.map
      String.ofList).mapM Text.decodeText? = some (some password) := by
    obtain ⟨_, -, read, hread, heq⟩ := by
      simpa only [ofAuthority?, Option.bind_eq_bind, Option.bind_eq_some_iff] using h
    cases heq
    rwa [← hpassword]
  cases hwho : (Url.userinfo (':' :: front)).1 with
  | none => simp [hwho, Reference.divide] at hread
  | some who =>
    obtain ⟨rest, hrest⟩ := Url.userinfo_prefix hwho
    cases who with
    | nil => simp [hwho, Reference.divide] at hread
    | cons c who =>
      obtain ⟨rfl, hfront⟩ := List.cons.inj hrest
      have hdivide : Reference.divide ':' (':' :: who) = ([], some who) :=
        Reference.divide_append (List.not_mem_nil) who
      rw [hwho, Option.getD_some, hdivide] at hread
      have hdecode : Text.decodeText? (String.ofList who) = some password := by simpa using hread
      refine (Text.length_utf8Bytes_le_of_decodeText? hdecode).trans ?_
      rw [← hfront, Text.utf8Bytes_ofList, Text.utf8Bytes_ofList]
      exact ((List.prefix_append who rest).flatMap String.utf8EncodeChar).length_le

/-- The server's part of an address ends where it can end. -/
theorem ofAddress?_eq {address : String} {front rest : List Char} {c : Char}
    (h : address.toList = "redis://".toList ++ (front ++ c :: rest)) (hc : ends c = true)
    (hfront : ∀ d ∈ front, ends d = false) : ofAddress? address = ofAuthority? front := by
  have hscheme : Url.scheme? ("redis://".toList ++ (front ++ c :: rest)) =
      some ("redis", '/' :: '/' :: (front ++ c :: rest)) := rfl
  have htake : (front ++ c :: rest).takeWhile (fun c => !ends c) = front := by
    rw [List.takeWhile_append_of_pos fun d hd => by simp [hfront d hd],
      List.takeWhile_cons_of_neg (by simp [hc]), List.append_nil]
  rw [ofAddress?, h, hscheme]
  exact congrArg ofAuthority? htake

end Destination

namespace CacheSettings

open Destination

variable {s : CacheSettings} {p : String}

theorem toList_address_none (hurl : s.url = none) (hpassword : s.password = none) :
    s.address.toList = "redis://".toList ++
      ((s.host.toList ++ ':' :: Nat.toDigits 10 s.portNumber) ++ '/' :: []) := by
  simp [address, hurl, hpassword, Nat.toString_eq_repr, Nat.toList_repr]

theorem toList_address_some (hurl : s.url = none) (hpassword : s.password = some p) :
    s.address.toList = "redis://".toList ++
      ((':' :: (p.toList ++ '@' :: (s.host.toList ++ ':' :: Nat.toDigits 10 s.portNumber))) ++ '/' :: []) := by
  simp [address, hurl, hpassword, Nat.toString_eq_repr, Nat.toList_repr]

/-- **A password that ends the server's part of the address says itself which server is meant**, whatever
host and port are. -/
theorem address_of_ends {front rest : List Char} {c : Char} (hurl : s.url = none)
    (hpassword : s.password = some p) (hp : p.toList = front ++ c :: rest) (hc : ends c = true)
    (hfront : ∀ d ∈ front, ends d = false) : ofAddress? s.address = ofAuthority? (':' :: front) := by
  have hlist : s.address.toList = "redis://".toList ++ ((':' :: front) ++ c :: (rest ++
      '@' :: (s.host.toList ++ ':' :: Nat.toDigits 10 s.portNumber) ++ '/' :: [])) := by
    rw [toList_address_some hurl hpassword, hp]
    simp
  exact ofAddress?_eq hlist hc (List.forall_mem_cons.2 ⟨rfl, hfront⟩)

/-- Without such a character the password is decoded. -/
theorem address_of_not_ends (hurl : s.url = none) (hpassword : s.password = some p)
    (hhost : IsHost s.host) (hp : ∀ c ∈ p.toList, ends c = false) :
    ofAddress? s.address = (Text.decodeText? p).map fun decoded =>
      ⟨s.host, some s.portNumber, some decoded⟩ := by
  have hfront : ∀ c ∈ ':' :: (p.toList ++ '@' :: (s.host.toList ++ ':' :: Nat.toDigits 10 s.portNumber)),
      ends c = false := by
    refine List.forall_mem_cons.2 ⟨rfl, List.forall_mem_append.2 ⟨hp, ?_⟩⟩
    exact List.forall_mem_cons.2 ⟨rfl, fun c hc => (of_mem_machine hhost hc).1⟩
  rw [ofAddress?_eq (toList_address_some hurl hpassword) (by decide) hfront,
    ofAuthority?_password hhost, String.ofList_toList]

/-- Without a password the address means the server that was meant. -/
theorem address_of_no_password (hurl : s.url = none) (hpassword : s.password = none)
    (hhost : IsHost s.host) : ofAddress? s.address = some ⟨s.host, some s.portNumber, none⟩ := by
  rw [ofAddress?_eq (toList_address_none hurl hpassword) (by decide)
    fun c hc => (of_mem_machine hhost hc).1, ofAuthority?_machine hhost]

/-- A password that ends the server's part of the address is not read from it. -/
theorem address_ne_of_ends {front rest : List Char} {c : Char} (hurl : s.url = none)
    (hpassword : s.password = some p) (hp : p.toList = front ++ c :: rest) (hc : ends c = true)
    (hfront : ∀ d ∈ front, ends d = false) {d : Destination} (hread : ofAddress? s.address = some d) :
    d.password ≠ some p := by
  intro hsame
  rw [address_of_ends hurl hpassword hp hc hfront] at hread
  have hle := length_password_le hread hsame
  have hpos := List.length_pos_iff.2 (String.utf8EncodeChar_ne_nil (c := c))
  rw [Text.utf8Bytes_eq, hp, Text.utf8Bytes_ofList, List.flatMap_append, List.flatMap_cons,
    List.length_append, List.length_append] at hle
  omega

/-- **The address means the server that was meant exactly if nothing in the password ends the server's part
of it and nothing is decoded.** Otherwise it means another server or none, or another password. -/
theorem address_means_iff (hurl : s.url = none) (hpassword : s.password = some p)
    (hhost : IsHost s.host) :
    (∀ front c rest, p.toList = front ++ c :: rest → ends c = true → (∀ d ∈ front, ends d = false) →
      ofAddress? s.address = ofAuthority? (':' :: front)) ∧
    ((∀ c ∈ p.toList, ends c = false) → ofAddress? s.address = (Text.decodeText? p).map fun decoded =>
      ⟨s.host, some s.portNumber, some decoded⟩) ∧
    (ofAddress? s.address = some ⟨s.host, some s.portNumber, some p⟩ ↔
      (∀ c ∈ p.toList, ends c = false) ∧ ¬ Text.Escaped p.toList) := by
  refine ⟨fun front c rest hp hc hfront => address_of_ends hurl hpassword hp hc hfront,
    address_of_not_ends hurl hpassword hhost, ?_⟩
  by_cases hp : ∀ c ∈ p.toList, ends c = false
  · rw [address_of_not_ends hurl hpassword hhost hp, and_iff_right hp, ← Text.decodeText?_eq_self_iff]
    simp
  · refine iff_of_false (fun hread => ?_) fun h => hp h.1
    cases hfind : p.toList.find? ends with
    | none => exact hp fun c hc => by simpa using List.find?_eq_none.1 hfind c hc
    | some c =>
      obtain ⟨hc, front, rest, heq, hfront⟩ := List.find?_eq_some_iff_append.1 hfind
      exact address_ne_of_ends hurl hpassword heq hc (by simpa using hfront) hread rfl

/-- An ordinary password. -/
theorem address_means_iff_ordinary :
    let s : CacheSettings := { CacheSettings.default with password := some "hunter2" }
    s.check = .ok () ∧ s.url = none ∧ s.password = some "hunter2" ∧ IsHost s.host ∧
      ofAddress? s.address = some ⟨"localhost", some 6379, some "hunter2"⟩ := by
  intro s
  have hhost : IsHost s.host := by decide +kernel
  obtain ⟨-, -, hiff⟩ := address_means_iff (s := s) rfl rfl hhost
  exact ⟨by decide +kernel, rfl, rfl, hhost, hiff.2 ⟨by simp [ends], Text.not_escaped_of_not_mem (by decide +kernel)⟩⟩

/-- Passwords with which the address means no server, another server, and the same with another password. -/
theorem address_misread :
    let s (p : String) : CacheSettings := { CacheSettings.default with password := some p }
    (∀ p, (s p).check = .ok ()) ∧
      ofAddress? (s "p/w").address = none ∧
      ofAddress? (s "w@elsewhere:1/p").address = some ⟨"elsewhere", some 1, some "w"⟩ ∧
      ofAddress? (s "50%25").address = some ⟨"localhost", some 6379, some "50%"⟩ := by
  intro s
  have hcheck : CacheSettings.default.check = .ok () := by decide +kernel
  refine ⟨fun _ => hcheck, ?_, ?_, ?_⟩
  · have hp : "p/w".toList = "p".toList ++ '/' :: "w".toList := by decide +kernel
    rw [address_of_ends (s := s "p/w") rfl rfl hp rfl (by simp [ends])]
    decide +kernel
  · have hp : "w@elsewhere:1/p".toList = "w@elsewhere:1".toList ++ '/' :: "p".toList := by decide +kernel
    have hdecode : Text.decodeText? (String.ofList ['w']) = some "w" :=
      Text.decodeText?_eq_self (by simp)
    rw [address_of_ends (s := s "w@elsewhere:1/p") rfl rfl hp rfl (by simp [ends])]
    refine (ofAuthority?_password (show IsHost "elsewhere" by decide +kernel) 1 ['w']).trans ?_
    rw [hdecode]
    rfl
  · have hdecode : Text.decodeText? "50%25" = some "50%" := by
      rw [Text.decodeText?, Text.ofUtf8Bytes?_eq_some, Text.percentDecode]
      decide +kernel
    rw [address_of_not_ends (s := s "50%25") rfl rfl (by decide +kernel) (by simp [ends]), hdecode]
    rfl

end CacheSettings

end ContentSync
