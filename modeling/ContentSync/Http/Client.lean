import ContentSync.Http.Message
import ContentSync.Json.Decode
import ContentSync.Text.Blank
import ContentSync.Url.Parse

/-!
# Calls to another service

A client is made for one service. It knows the address under which all paths of the service lie, and
the key that it shows.

* `ApiClient.create` — a client for an address;
* `ApiClient.address` — the address of a path;
* `ApiClient.prepare` — the request that is sent;
* `ApiClient.request` — the answer, whatever its status;
* `ApiClient.postJson`, `ApiClient.postDiscard` — calls for which any other status than success is a
  failure.
-/

set_option autoImplicit false

namespace ContentSync

structure ApiClient where
  /-- The address of the service; its last character is a slash. -/
  base : Url
  token : Option String

/-- The outcome of a request. -/
structure ApiAnswer (α : Type) where
  /-- The body of an answer of success. -/
  data : Option α
  /-- The body of any other answer, if it could be read. -/
  errorBody : Option String
  status : Nat
  headers : Headers

namespace ApiAnswer

variable {α : Type}

def success (a : ApiAnswer α) : Bool := a.data.isSome

/-- The data of an answer of success; any other answer is a failure. -/
def result (a : ApiAnswer α) : Except Failure α :=
  match a.data with
  | some data => .ok data
  | none => .error (.status a.status (a.errorBody.getD ""))

end ApiAnswer

namespace ApiClient

/-- An address without blanks around it and with a slash at its end. -/
def normalize (address : String) : String :=
  let cs := Text.trimChars address.toList
  if cs.getLast? = some '/' then String.ofList cs else String.ofList (cs ++ ['/'])

/-- A client for the service under an address. -/
def create (address : String) (token : Option String) : Except Failure ApiClient :=
  match Url.parse (normalize address) with
  | .ok base => .ok ⟨base, token⟩
  | .error e => .error (.config ("invalid base URL '" ++ address ++ "': " ++ e.message))

/-- A path without the slashes at its start. -/
def relativePath (path : String) : String := String.ofList (path.toList.dropWhile (· == '/'))

/-- The address of a path of the service. -/
def address (c : ApiClient) (path : String) : Except Failure Url :=
  match c.base.join (relativePath path) with
  | .ok url => .ok url
  | .error e => .error (.config ("invalid path '" ++ path ++ "': " ++ e.message))

/-- The headers that the client adds to those of the caller. -/
def headers (c : ApiClient) (body : Option Json) : Headers :=
  (match c.token with
    | some token => [("Authorization", "Bearer " ++ token)]
    | none => [])
  ++ (if body.isSome then [("Content-Type", "application/json")] else [])

def prepare (c : ApiClient) (method path : String) (extra : Headers) (body : Option Json) :
    Except Failure HttpRequest :=
  (c.address path).map fun url => ⟨method, url, extra ++ c.headers body, body⟩

/-- Reads the body of an answer of success. -/
def decode {α : Type} (read : Written → Option α) (path : String) (bytes : List UInt8) :
    Except Failure α :=
  match ((Text.ofUtf8Bytes? bytes).bind Written.parse?).bind read with
  | some a => .ok a
  | none => .error (.malformed (path ++ ": not the expected JSON"))

/-- What an answer means to the caller. -/
def interpret {α : Type} (read : Written → Option α) (path : String) (a : HttpAnswer) :
    Except Failure (ApiAnswer α) :=
  if a.success then
    match a.body with
    | .error e => .error (e.failure path)
    | .ok bytes => (decode read path bytes).map fun data => ⟨some data, none, a.status, a.headers⟩
  else .ok ⟨none, a.text?, a.status, a.headers⟩

/-- Sends a request and reads the answer. -/
def request {α : Type} (c : ApiClient) (network : Network) (read : Written → Option α)
    (method path : String) (extra : Headers) (body : Option Json) :
    Except Failure (ApiAnswer α) := do
  let r ← c.prepare method path extra body
  match r.send network with
  | .error e => .error (e.failure path)
  | .ok answer => interpret read path answer

/-- Posts a body and returns the data of the answer. -/
def postJson {α : Type} (c : ApiClient) (network : Network) (read : Written → Option α)
    (path : String) (body : Json) : Except Failure α := do
  (← c.request network read "POST" path [] (some body)).result

/-- Posts a body and returns the status of an answer of success, whose body does not count. -/
def postDiscard (c : ApiClient) (network : Network) (path : String) (body : Json) :
    Except Failure Nat := do
  let r ← c.prepare "POST" path [] (some body)
  match r.send network with
  | .error e => .error (e.failure path)
  | .ok answer =>
    if answer.success then .ok answer.status
    else .error (.status answer.status (answer.text?.getD ""))

end ApiClient

end ContentSync
