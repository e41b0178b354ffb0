import ContentSync.Engine.Lookup
import ContentSync.Engine.Orchestrator
import ContentSync.Http.RequestTarget
import ContentSync.Text.Parts
import ContentSync.Text.Percent

/-!
# The server's pages

* `Route.of` — what a request asks for;
* `Response` — what is answered: `Response.ofEpoch` to a request for an epoch,
  `Response.ofLookup` to one for a player.
-/

set_option autoImplicit false

namespace ContentSync

/-- What a request asks for. -/
inductive Route where
  | status
  | player (code : String)
  /-- The code in the path is no text. -/
  | unreadablePlayer
  | sync
  | unknown
  /-- The page exists, but not for this method. -/
  | notAllowed (allowed : List String)
  deriving DecidableEq, Repr

namespace Route

/-- A page for those who read. -/
def reading (method : String) (route : Route) : Route :=
  if method = "GET" ∨ method = "HEAD" then route else .notAllowed ["GET", "HEAD"]

/-- What a request asks for. A path of a player has exactly one part after the name of the page. -/
def of (method target : String) : Route :=
  let path := (RequestTarget.path? target).getD []
  match (Text.parts (· == '/') path).map String.ofList with
  | ["", "status"] => reading method .status
  | ["", "sync"] => if method = "POST" then .sync else .notAllowed ["POST"]
  | ["", "player", part] =>
    if part = "" then .unknown
    else
      reading method (match Text.decodeText? part with
        | some code => .player code
        | none => .unreadablePlayer)
  | _ => .unknown

end Route

/-- The body of an answer. -/
inductive Body where
  | json (value : Json)
  | text (value : String)

/-- An answer of the server. -/
structure Response where
  status : Nat
  /-- The header that tells where a record came from. -/
  source : Option Engine.Source
  /-- The methods that a page allows. -/
  allowed : Option (List String)
  body : Body

namespace Response

def ok (value : Json) : Response := ⟨200, none, none, .json value⟩

def ofFailure (f : Failure) : Response := ⟨f.httpStatus, none, none, .json f.httpBody⟩

def ofEpoch : Except Failure Epoch → Response
  | .ok epoch => ok epoch.summary
  | .error f => ofFailure f

def ofLookup : Except Failure (Json × Engine.Source) → Response
  | .ok (record, source) => ⟨200, some source, none, .json record⟩
  | .error f => ofFailure f

def notFound : Response := ⟨404, none, none, .text ""⟩

def notAllowed (allowed : List String) : Response := ⟨405, none, some allowed, .text ""⟩

def unreadablePlayer : Response :=
  ⟨400, none, none, .text "Invalid URL: Invalid UTF-8 in `ally_code`"⟩

/-- The answer to a request with the given method: one that asks for the head has no body. -/
def forMethod (method : String) (r : Response) : Response :=
  if method = "HEAD" then { r with body := .text "" } else r

end Response

end ContentSync
