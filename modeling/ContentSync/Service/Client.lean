import ContentSync.Content.AllyCode
import ContentSync.Content.Segment
import ContentSync.Content.Version
import ContentSync.Http.Client
import ContentSync.Settings.Endpoints

/-!
# The content service

Every call posts an envelope with what it asks for.

* `ServiceCall` — what can be asked for;
* `ServiceCall.envelope` — the body of the request;
* `ContentService.metadata`, `ContentService.payload` — the answers.
-/

set_option autoImplicit false

namespace ContentSync

/-- What the content service is asked for. -/
inductive ServiceCall where
  | metadata
  | segment (version : Version) (part : Segment)
  | localization (version : Version) (unzip : Bool)
  | player (code : AllyCode)
  deriving DecidableEq, Repr

namespace ServiceCall

/-- The path of a call. -/
def endpoint : ServiceCall → String
  | metadata => "metadata"
  | segment _ _ => "data"
  | localization _ _ => "localization"
  | player _ => "player"

/-- What a call asks for. -/
def payload (includePveUnits : Bool) : ServiceCall → List (String × Json)
  | metadata => []
  | segment version part => [("version", version.json), ("includePveUnits", .bool includePveUnits),
      ("requestSegment", .natural part.code)]
  | localization version _ => [("id", version.json)]
  | player code => [("allyCode", code.json)]

/-- The body of a request. Only a call for localization says how the files come. -/
def envelope (includePveUnits : Bool) (call : ServiceCall) : Json :=
  .ofMembers ([("payload", .ofMembers (call.payload includePveUnits)), ("enums", .bool false)]
    ++ match call with
      | localization _ unzip => [("unzip", .bool unzip)]
      | _ => [])

end ServiceCall

structure ContentService where
  client : ApiClient
  includePveUnits : Bool

namespace ContentService

/-- The service with the given settings. -/
def create (s : ServiceSettings) : Except Failure ContentService := do
  s.check.mapError Invalid.failure
  pure ⟨← ApiClient.create s.baseUrl s.accessKey, s.includePveUnits⟩

/-- Makes a call and reads its answer. -/
def ask {α : Type} (s : ContentService) (network : Network) (read : Written → Option α)
    (call : ServiceCall) : Except Failure α :=
  s.client.postJson network read call.endpoint (call.envelope s.includePveUnits)

/-- The versions that the service offers. -/
def metadata (s : ContentService) (network : Network) : Except Failure Metadata :=
  s.ask network Metadata.decode? .metadata

/-- The payload of any other call. -/
def payload (s : ContentService) (network : Network) (call : ServiceCall) : Except Failure Json :=
  s.ask network Written.value? call

end ContentService

end ContentSync
