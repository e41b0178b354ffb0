import ContentSync.Text.Percent
import ContentSync.Url.Domain
import ContentSync.Url.Escape

/-!
# Hosts

* `Host` — a domain name, an address of either version of the internet protocol, or a text
  where the scheme has no domains;
* `Host.parse` — the host of a scheme with domains;
* `Host.parseText` — the host of another scheme;
* `Host.text` — the host as it is written in an address.
-/

set_option autoImplicit false

namespace ContentSync

/-- Why a text is no address. -/
inductive UrlError where
  | emptyHost
  | domainName
  | portNumber
  | ipv4
  | ipv6
  | domainCharacter
  /-- There is no scheme and no address that the text is relative to. -/
  | noBase
  /-- The text is relative to an address without a hierarchy. -/
  | flatBase
  deriving DecidableEq, Repr

namespace UrlError

def message : UrlError → String
  | emptyHost => "empty host"
  | domainName => "invalid international domain name"
  | portNumber => "invalid port number"
  | ipv4 => "invalid IPv4 address"
  | ipv6 => "invalid IPv6 address"
  | domainCharacter => "invalid domain character"
  | noBase => "relative URL without a base"
  | flatBase => "relative URL with a cannot-be-a-base base"

end UrlError

/-- A machine in the network. -/
inductive Host where
  | domain (name : String)
  /-- A number of 32 bits. -/
  | ipv4 (address : Nat)
  /-- Eight numbers of 16 bits. -/
  | ipv6 (groups : List Nat)
  | plain (text : String)
  deriving DecidableEq, Repr

namespace Host

/-- The value of a digit in a base up to sixteen. -/
def digit? (base : Nat) (c : Char) : Option Nat := do
  let d ← if '0' ≤ c ∧ c ≤ '9' then some (c.toNat - 48)
    else if 'a' ≤ c ∧ c ≤ 'f' then some (c.toNat - 87)
    else if 'A' ≤ c ∧ c ≤ 'F' then some (c.toNat - 55)
    else none
  if d < base then some d else none

/-- The value of a possibly empty list of digits. -/
def digits? (base : Nat) (cs : List Char) : Option Nat :=
  cs.foldlM (fun n c => (digit? base c).map (base * n + ·)) 0

/-! ## Version 4 -/

/-- A number of such an address: hexadecimal after `0x`, octal after another zero, else decimal. -/
def number? : List Char → Option Nat
  | [] => none
  | '0' :: 'x' :: cs | '0' :: 'X' :: cs => digits? 16 cs
  | '0' :: c :: cs => digits? 8 (c :: cs)
  | cs => digits? 10 cs

/-- Whether the last part of a name, the end being a full stop or not, makes it an address. -/
def endsInNumber (name : List Char) : Bool :=
  let ends (part : List Char) : Bool :=
    (!part.isEmpty && part.all Char.isDigit) || (number? part).isSome
  match (Domain.labels name).reverse with
  | [] => false
  | [] :: [] => false
  | [] :: part :: _ => ends part
  | part :: _ => ends part

/-- The value of the parts of an address. All but the last stand for one byte; the last fills what
is left. -/
def ipv4Value? (numbers : List Nat) : Option Nat :=
  match numbers.reverse with
  | [] => none
  | last :: leading =>
    let room := Nat.pow 256 (4 - leading.length)
    if 3 < leading.length ∨ leading.any (255 < ·) ∨ room ≤ last then none
    else some (leading.reverse.foldl (fun n byte => 256 * n + byte) 0 * room + last)

def ipv4? (name : List Char) : Option Nat := do
  let all := Domain.labels name
  let used := if all.getLast? = some [] then all.dropLast else all
  ipv4Value? (← used.mapM number?)

def ipv4Text (address : Nat) : String :=
  ".".intercalate ([3, 2, 1, 0].map fun i => toString (address / Nat.pow 256 i % 256))

/-! ## Version 6 -/

/-- A byte in decimal, without a zero before it. -/
def byte? (cs : List Char) : Option Nat :=
  match cs with
  | [] => none
  | '0' :: _ :: _ => none
  | cs => if cs.length ≤ 3 then (digits? 10 cs).filter (· ≤ 255) else none

/-- The two groups of an address of version 4 at the end. -/
def tail? (cs : List Char) : Option (List Nat) := do
  match ← (Domain.labels cs).mapM byte? with
  | [a, b, c, d] => some [256 * a + b, 256 * c + d]
  | _ => none

/-- One to four hexadecimal digits. -/
def group? (cs : List Char) : Option Nat :=
  if 0 < cs.length ∧ cs.length ≤ 4 then digits? 16 cs else none

/-- The groups between colons; at the end of an address the last may be of version 4. -/
def groups? (atEnd : Bool) (cs : List Char) : Option (List Nat) :=
  if cs.isEmpty then some []
  else
    let all := Text.parts (· == ':') cs
    match all.getLast? with
    | none => some []
    | some last => do
      let front ← all.dropLast.mapM group?
      if atEnd ∧ last.contains '.' then pure (front ++ (← tail? last))
      else pure (front ++ [← group? last])

/-- What stands before and after the first pair of colons. -/
def splitAtPair : List Char → Option (List Char × List Char)
  | [] => none
  | ':' :: ':' :: rest => some ([], rest)
  | c :: rest => (splitAtPair rest).map fun p => (c :: p.1, p.2)

/-- The groups of an address; a pair of colons stands for one or more groups that are zero. -/
def ipv6? (cs : List Char) : Option (List Nat) :=
  match splitAtPair cs with
  | none =>
    if cs.isEmpty then none else (groups? true cs).filter fun gs => gs.length = 8
  | some (before, after) => do
    let front ← groups? false before
    let back ← groups? true after
    let missing := 8 - (front.length + back.length)
    if missing = 0 then none else some (front ++ List.replicate missing 0 ++ back)

/-- The lengths of the runs of zeros that start at each group. -/
def zeroRuns : List Nat → List Nat
  | [] => []
  | g :: rest =>
    let runs := zeroRuns rest
    (if g = 0 then runs.headD 0 + 1 else 0) :: runs

def hexText (n : Nat) : String := String.ofList (Nat.toDigits 16 n)

/-- The groups in hexadecimal; the first of the longest runs of at least two zeros is a pair of
colons. -/
def ipv6Text (groups : List Nat) : String :=
  let texts (gs : List Nat) : String := ":".intercalate (gs.map hexText)
  let runs := zeroRuns groups
  let longest := runs.foldl max 0
  if longest < 2 then texts groups
  else
    let start := runs.idxOf longest
    texts (groups.take start) ++ "::" ++ texts (groups.drop (start + longest))

/-! ## Hosts in addresses -/

/-- The address between square brackets. -/
def bracketed? (cs : List Char) : Except UrlError Host :=
  if cs.getLast? = some ']' then
    match ipv6? (cs.drop 1).dropLast with
    | some groups => .ok (.ipv6 groups)
    | none => .error .ipv6
  else .error .ipv6

/-- The host of a scheme with domains. -/
def parse (cs : List Char) : Except UrlError Host :=
  if cs.head? = some '[' then bracketed? cs
  else
    match Domain.ascii? cs with
    | none => .error .domainName
    | some name =>
      if name.isEmpty then .error .emptyHost
      else if endsInNumber name then
        match ipv4? name with
        | some address => .ok (.ipv4 address)
        | none => .error .ipv4
      else .ok (.domain (String.ofList name))

/-- The characters that the host of another scheme does not hold. -/
def isForbidden (c : Char) : Bool :=
  ['\x00', '\t', '\n', '\r', ' ', '#', '/', ':', '<', '>', '?', '@', '[', '\\', ']', '^',
    '|'].contains c

/-- The host of a scheme without domains. -/
def parseText (cs : List Char) : Except UrlError Host :=
  if cs.head? = some '[' then bracketed? cs
  else if cs.any isForbidden then .error .domainCharacter
  else .ok (.plain (String.ofList (escape .control cs)))

def text : Host → String
  | domain name => name
  | ipv4 address => ipv4Text address
  | ipv6 groups => "[" ++ ipv6Text groups ++ "]"
  | plain text => text

end Host

end ContentSync
