import ContentSync.Url.Host

/-!
# Addresses

* `Url` — an address: a scheme, an authority in most schemes, a path, and perhaps a query and
  a fragment;
* `Url.text` — the address as it is written;
* `Url.origin` — the scheme and the machine alone;
* `Url.afterOrigin` — the path, the query and the fragment.
-/

set_option autoImplicit false

namespace ContentSync

/-- Who asks, and which machine. An empty name or password stands for none. -/
structure Authority where
  user : String
  password : String
  host : Host
  portNumber : Option Nat
  deriving DecidableEq, Repr

/-- The path of an address. -/
inductive UrlPath where
  /-- A path without a hierarchy. -/
  | flat (text : String)
  /-- The names after each slash. -/
  | names (names : List String)
  deriving DecidableEq, Repr

structure Url where
  scheme : String
  authority : Option Authority
  path : UrlPath
  query : Option String
  fragment : Option String
  deriving DecidableEq, Repr

namespace Url

/-- The number of a machine's door that a scheme implies. -/
def impliedPortNumber : String → Option Nat
  | "http" | "ws" => some 80
  | "https" | "wss" => some 443
  | "ftp" => some 21
  | _ => none

/-- Whether the addresses of a scheme name a machine by its domain and may separate names by
backslashes. -/
def hasDomains (scheme : String) : Bool :=
  ["http", "https", "ws", "wss", "ftp", "file"].contains scheme

end Url

namespace Authority

/-- The machine alone. -/
def machine (a : Authority) : String :=
  a.host.text ++ (match a.portNumber with
    | some n => ":" ++ toString n
    | none => "")

def text (a : Authority) : String :=
  let password := if a.password = "" then "" else ":" ++ a.password
  let who := a.user ++ password
  (if who = "" then "" else who ++ "@") ++ a.machine

end Authority

namespace UrlPath

def text : UrlPath → String
  | flat text => text
  | names all => String.join (all.map ("/" ++ ·))

end UrlPath

namespace Url

/-- The path as it is written. Without an authority a path that starts with two slashes would be
taken for one, which a dot prevents. -/
def pathText (u : Url) : String :=
  match u.authority, u.path with
  | none, .names ("" :: name :: rest) => "/." ++ (UrlPath.names ("" :: name :: rest)).text
  | _, path => path.text

def marked (mark : String) : Option String → String
  | none => ""
  | some text => mark ++ text

/-- The path, the query and the fragment. -/
def afterOrigin (u : Url) : String :=
  u.path.text ++ marked "?" u.query ++ marked "#" u.fragment

def text (u : Url) : String :=
  u.scheme ++ ":" ++ (match u.authority with
    | some a => "//" ++ a.text
    | none => "") ++ u.pathText ++ marked "?" u.query ++ marked "#" u.fragment

/-- The path and the query, as they are sent to the machine. -/
def target (u : Url) : String := u.path.text ++ marked "?" u.query

/-- The scheme and the machine; an address without domains has no origin. -/
def origin (u : Url) : String :=
  match u.authority with
  | some a =>
    if hasDomains u.scheme && u.scheme != "file" then u.scheme ++ "://" ++ a.machine else "null"
  | none => "null"

end Url

end ContentSync
