import ContentSync.Content.Failure
import ContentSync.Json.Printer
import ContentSync.Text.Lossy
import ContentSync.Text.Percent
import ContentSync.Url.Basic

/-!
# Requests and answers

* `HttpRequest` — what is sent to another service;
* `HttpAnswer` — what comes back;
* `Network` — what becomes of a request.
-/

set_option autoImplicit false

namespace ContentSync

/-- The names and values of headers. -/
abbrev Headers := List (String × String)

structure HttpRequest where
  method : String
  url : Url
  headers : Headers
  body : Option Json
  deriving Repr

/-- Why there is no answer, or no complete one. -/
inductive Interruption where
  | timedOut
  /-- The connection failed, or the request could not be sent at all. -/
  | disconnected (reason : String)
  deriving DecidableEq, Repr

/-- The failure of a call to a path. -/
def Interruption.failure (path : String) : Interruption → Failure
  | timedOut => .timeout (path ++ ": operation timed out")
  | disconnected reason => .unreachable (path ++ ": " ++ reason)

structure HttpAnswer where
  status : Nat
  headers : Headers
  /-- The bytes of the body, or why reading them ended. -/
  body : Except Interruption (List UInt8)

namespace HttpAnswer

def success (a : HttpAnswer) : Bool := 200 ≤ a.status && a.status ≤ 299

/-- The body as text, `none` when it could not be read. -/
def text? (a : HttpAnswer) : Option String :=
  match a.body with
  | .ok bytes => some (Text.decodeLossy bytes)
  | .error _ => none

end HttpAnswer

/-- What becomes of a request. -/
abbrev Network := HttpRequest → Except Interruption HttpAnswer

namespace HttpRequest

/-- Whether a text can be the value of a header: it holds no control but the tab. -/
def isHeaderValue (text : String) : Bool :=
  text.toList.all fun c => (0x20 ≤ c.toNat && c.toNat ≠ 0x7F) || c = '\t'

/-- Whether a request can be sent: over the protocol of the web, with headers that can be written.
-/
def sendable (r : HttpRequest) : Bool :=
  ["http", "https"].contains r.url.scheme && r.headers.all fun h => isHeaderValue h.2

/-- What becomes of a request that is sent if it can be. -/
def send (r : HttpRequest) (network : Network) : Except Interruption HttpAnswer :=
  if r.sendable then network r else .error (.disconnected "builder error")

end HttpRequest

end ContentSync
