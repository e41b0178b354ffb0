import ContentSync.Notice.Event

/-!
# Messages

A chat service takes a message with one embed, within limits on the length of its texts.

* `truncate` — a text cut to a limit, the cut marked by an ellipsis;
* `bulletList` — as many ids as fit, one a line, and the number of those left out;
* `Embed.ofEvent` — the embed of an event;
* `Embed.message` — the message that is sent.
-/

set_option autoImplicit false

namespace ContentSync

/-- One block of an embed. -/
structure EmbedField where
  name : String
  value : String
  deriving DecidableEq, Repr

/-- What a message shows. -/
structure Embed where
  title : String
  description : String
  color : Nat
  fields : List EmbedField
  timestamp : String
  deriving DecidableEq, Repr

namespace Embed

def titleLimit : Nat := 256

def descriptionLimit : Nat := 4096

def fieldNameLimit : Nat := 256

def fieldValueLimit : Nat := 1024

def fieldCountLimit : Nat := 25

/-- At most `limit` characters. -/
def truncateChars (cs : List Char) (limit : Nat) : List Char :=
  if cs.length ≤ limit then cs else cs.take (limit - 1) ++ ['…']

def truncate (text : String) (limit : Nat) : String :=
  String.ofList (truncateChars text.toList limit)

/-- The line that counts the ids left out. -/
def footer (remaining : Nat) : List Char := ("\n… and " ++ toString remaining ++ " more").toList

/-- The line of an id. -/
def bullet (id : String) : List Char := '-' :: ' ' :: id.toList

/-- Adds lines to what is written so far while they fit; unless a line is the last one there must be
room for a footer after it. -/
def bulletLines (limit : Nat) (written : List Char) : List String → List Char
  | [] => written
  | id :: rest =>
    let separator := if written.isEmpty then [] else ['\n']
    let next := written ++ separator ++ bullet id
    let reserve := if rest.isEmpty then 0 else (footer (rest.length + 1)).length
    if limit < next.length + reserve then
      truncateChars ((written ++ footer (rest.length + 1)).dropWhile (· == '\n')) limit
    else bulletLines limit next rest

def bulletList (ids : List String) (limit : Nat) : String :=
  String.ofList (bulletLines limit [] ids)

def ofField (f : EventField) : EmbedField :=
  ⟨truncate f.name fieldNameLimit, truncate f.value fieldValueLimit⟩

def ofGroup (g : String × List String) : EmbedField :=
  ⟨truncate ("New or changed " ++ g.1) fieldNameLimit, bulletList g.2 fieldValueLimit⟩

/-- The fields of the event come before the changed items. -/
def ofEvent (e : Event) : Embed where
  title := truncate e.title titleLimit
  description := truncate e.description descriptionLimit
  color := e.severity.color
  fields := (e.fields.map ofField ++ e.changedItems.map ofGroup).take fieldCountLimit
  timestamp := e.time.messageText

def fieldJson (f : EmbedField) : Json :=
  .ofMembers [("name", .string f.name), ("value", .string f.value), ("inline", .bool false)]

/-- An embed without fields has no list of them. -/
def json (e : Embed) : Json :=
  .ofMembers ([("title", .string e.title), ("description", .string e.description),
    ("color", .natural e.color), ("timestamp", .string e.timestamp)]
    ++ if e.fields.isEmpty then [] else [("fields", .array (e.fields.map fieldJson))])

/-- A message with one embed. -/
def message (e : Embed) : Json := .object [("embeds", .array [e.json])]

end Embed

end ContentSync
