/-!
# Targets of requests

The target of a request is a path with a query, a full address of which only the path counts, a
machine alone, or an asterisk.

* `RequestTarget.path?` — the path that a target asks for, `none` when it is no target at all;
* `RequestTarget.isMethod` — whether a text can be the method of a request.
-/

set_option autoImplicit false

namespace ContentSync.RequestTarget

/-- The characters that may be part of a word of the protocol. -/
def isMethod (text : String) : Bool :=
  !text.isEmpty && text.toList.all fun c => c.isAlphanum || "!#$%&'*+-.^_\x60|~".toList.contains c

/-- The characters of a path. Those outside ASCII and a few others are let through although they
should be escaped. -/
def isPathChar (c : Char) : Bool :=
  c.toNat > 0x20 && !List.contains ['#', '<', '>', '?', '\x60'] c

/-- The characters of a query. -/
def isQueryChar (c : Char) : Bool := c.toNat > 0x20 && !List.contains ['"', '#', '<', '>'] c

/-- The path of what follows the machine: the query must be well formed, a fragment need not. -/
def pathAndQuery? (cs : List Char) : Option (List Char) :=
  let body := cs.takeWhile (· != '#')
  let path := body.takeWhile (· != '?')
  let query := (body.dropWhile (· != '?')).drop 1
  if path.all isPathChar && query.all isQueryChar then some path else none

/-- The characters of a machine and of who asks. -/
def isMachineChar (c : Char) : Bool :=
  c.isAlphanum || "!$&'()*+,-.:;=@[]_~%".toList.contains c

/-- Where a machine ends. -/
def endsMachine (c : Char) : Bool := c == '/' || c == '?' || c == '#'

/-- What is known of the characters of a machine so far. -/
structure MachineScan where
  colons : Nat
  opened : Bool
  closed : Bool
  percent : Bool
  afterAt : Bool

/-- Takes one more character. Colons and percent signs before an `@` or in brackets are no concern
of the machine. -/
def MachineScan.take? (s : MachineScan) (c : Char) : Option MachineScan :=
  let s := { s with afterAt := c == '@' }
  if !isMachineChar c then none
  else if c = ':' then if 8 ≤ s.colons then none else some { s with colons := s.colons + 1 }
  else if c = '[' then if s.percent || s.opened then none else some { s with opened := true }
  else if c = ']' then
    if !s.opened || s.closed then none
    else some { s with closed := true, colons := 0, percent := false }
  else if c = '@' then some { s with colons := 0, percent := false }
  else if c = '%' then some { s with percent := true }
  else some s

/-- Whether a text names a machine. -/
def isMachine (cs : List Char) : Bool :=
  match cs.foldlM MachineScan.take? ⟨0, false, false, false, false⟩ with
  | some s => s.opened == s.closed && s.colons ≤ 1 && !s.afterAt && !s.percent
  | none => false

/-- The characters of a scheme. -/
def isSchemeChar (c : Char) : Bool := c.isAlphanum || "+-.~".toList.contains c

/-- What follows the scheme of a full address. -/
def afterScheme? (cs : List Char) : Option (List Char) :=
  match cs.dropWhile isSchemeChar with
  | ':' :: '/' :: '/' :: rest => some rest
  | _ => none

/-- The longest scheme. -/
def schemeLimit : Nat := 64

/-- A target has at most so many bytes. -/
def sizeLimit : Nat := 65534

/-- The path that a target asks for; one that names a machine alone asks for none. -/
def path? (text : String) : Option (List Char) :=
  if text.isEmpty || sizeLimit < text.utf8ByteSize then none
  else
    let cs := text.toList
    if cs = ['*'] then some cs
    else if cs.head? = some '/' then pathAndQuery? cs
    else
      match afterScheme? cs with
      | none => if isMachine cs then some [] else none
      | some rest =>
        let machine := rest.takeWhile fun c => !endsMachine c
        if schemeLimit < (cs.takeWhile isSchemeChar).length || machine.isEmpty
            || !isMachine machine then none
        else (pathAndQuery? (rest.dropWhile fun c => !endsMachine c)).map fun path =>
          if path.isEmpty then ['/'] else path

end ContentSync.RequestTarget
