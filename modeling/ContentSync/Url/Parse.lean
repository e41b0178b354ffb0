import ContentSync.Text.Blank
import ContentSync.Url.Basic

/-!
# Reading addresses

A text is an address by itself, or relative to a base address, from which it takes what it leaves
out: the scheme, the authority, or the names of the path but the last.

* `Url.parse` — an address;
* `Url.join` — a text relative to a base;
* `Url.addNames_append` — the names of a path are added one after the other.
-/

set_option autoImplicit false

namespace ContentSync

/-- A text before its scheme is looked at. -/
structure Reference where
  /-- What comes before the query and the fragment. -/
  body : List Char
  query : Option (List Char)
  fragment : Option (List Char)

namespace Reference

/-- Divides a text at the first occurrence of a mark. -/
def divide (mark : Char) (cs : List Char) : List Char × Option (List Char) :=
  (cs.takeWhile (· != mark), match cs.dropWhile (· != mark) with
    | [] => none
    | _ :: rest => some rest)

/-- Controls and spaces do not count at the ends, tabs and line ends do not count at all. -/
def clean (cs : List Char) : List Char :=
  (Text.dropEndWhile (· ≤ ' ') (cs.dropWhile (· ≤ ' '))).filter fun c =>
    c != '\t' && c != '\n' && c != '\r'

def ofChars (cs : List Char) : Reference :=
  let (front, fragment) := divide '#' cs
  let (body, query) := divide '?' front
  ⟨body, query, fragment⟩

def ofText (text : String) : Reference := ofChars (clean text.toList)

/-- The query of an address with the given scheme. -/
def queryText (r : Reference) (scheme : String) : Option String :=
  let set := if Url.hasDomains scheme then EscapeSet.webQuery else .query
  r.query.map fun cs => String.ofList (escape set cs)

def fragmentText (r : Reference) : Option String :=
  r.fragment.map fun cs => String.ofList (escape .fragment cs)

end Reference

namespace Url

/-! ## Schemes -/

def isSchemeChar (c : Char) : Bool :=
  c.isAlphanum || c == '+' || c == '-' || c == '.'

/-- The scheme before a colon, in lower case, and what follows the colon. -/
def scheme? (cs : List Char) : Option (String × List Char) :=
  if (cs.head?.map Char.isAlpha).getD false then
    match cs.dropWhile isSchemeChar with
    | ':' :: rest => some (String.ofList ((cs.takeWhile isSchemeChar).map Char.toLower), rest)
    | _ => none
  else none

/-! ## Paths -/

/-- Whether a character separates the names of a path. -/
def isSlash (scheme : String) (c : Char) : Bool := c == '/' || (c == '\\' && hasDomains scheme)

def isAnySlash (c : Char) : Bool := c == '/' || c == '\\'

/-- Whether a name stands for the place itself. -/
def isDot (name : List Char) : Bool :=
  [['.'], ['%', '2', 'e']].contains (name.map Char.toLower)

/-- Whether a name stands for the place above. -/
def isDoubleDot (name : List Char) : Bool :=
  [['.', '.'], ['.', '%', '2', 'e'], ['%', '2', 'e', '.'],
    ['%', '2', 'e', '%', '2', 'e']].contains (name.map Char.toLower)

/-- Whether a name is the letter of a drive with a colon or a bar. -/
def isDrive : List Char → Bool
  | [letter, mark] => letter.isAlpha && (mark == ':' || mark == '|')
  | _ => false

/-- Whether a text starts with a name that is the letter of a drive. -/
def startsWithDrive (cs : List Char) : Bool := isDrive (cs.takeWhile fun c => !isAnySlash c)

/-- A path without its last name. A drive is not left. -/
def leave (names : List String) : List String :=
  if (names.getLast?.map fun name => isDrive name.toList).getD false then names else names.dropLast

/-- Adds one name to a path. Dots that end a path leave an empty name there. In the address of a
file a drive at the start has a colon. -/
def addName (scheme : String) (names : List String) (name : List Char) (last : Bool) :
    List String :=
  if isDoubleDot name then leave names ++ (if last then [""] else [])
  else if isDot name then names ++ (if last then [""] else [])
  else if scheme = "file" ∧ names.isEmpty ∧ isDrive name then
    [String.ofList (name.take 1 ++ [':'])]
  else names ++ [String.ofList (escape .path name)]

/-- Adds names to a path. -/
def addNames (scheme : String) (names : List String) : List (List Char) → List String
  | [] => names
  | name :: rest => addNames scheme (addName scheme names name rest.isEmpty) rest

theorem addNames_append (scheme : String) (names : List String) (a : List (List Char))
    {b : List (List Char)} (h : b ≠ []) :
    addNames scheme names (a ++ b)
      = addNames scheme (a.foldl (addName scheme · · false) names) b := by
  induction a generalizing names with
  | nil => rfl
  | cons name rest ih =>
    have : (rest ++ b).isEmpty = false := by simp [h]
    simp only [List.cons_append, addNames, List.foldl_cons, this, ih]

/-- Adds the names of a text to a path. -/
def extend (scheme : String) (names : List String) (cs : List Char) : UrlPath :=
  .names (addNames scheme names (Text.parts (isSlash scheme) cs))

/-- The path after an authority. -/
def absolutePath (scheme : String) : List Char → UrlPath
  | [] => .names (if hasDomains scheme then [""] else [])
  | c :: cs => extend scheme [] (if isSlash scheme c then cs else c :: cs)

/-! ## Authorities -/

/-- The name and the password before the last `@`, and what follows it. -/
def userinfo (cs : List Char) : Option (List Char) × List Char :=
  if cs.contains '@' then
    let rest := (cs.reverse.takeWhile (· != '@')).reverse
    (some (cs.take (cs.length - rest.length - 1)), rest)
  else (none, cs)

/-- The host and what follows it; a colon between brackets belongs to the host. -/
def splitHost (bracketed : Bool) : List Char → List Char × List Char
  | [] => ([], [])
  | ':' :: cs =>
    if bracketed then
      let (host, rest) := splitHost true cs
      (':' :: host, rest)
    else ([], ':' :: cs)
  | c :: cs =>
    let within := c = '[' ∨ (bracketed ∧ c ≠ ']')
    let (host, rest) := splitHost within cs
    (c :: host, rest)

/-- The number after the colon, and what follows it; the one that the scheme implies is left out.
A backslash may follow, where it is not a slash. -/
def portNumber? (scheme : String) : List Char → Except UrlError (Option Nat × List Char)
  | [] => .ok (none, [])
  | _ :: cs =>
    let digits := cs.takeWhile Char.isDigit
    let rest := cs.dropWhile Char.isDigit
    let n := (Host.digits? 10 digits).getD 0
    if 65535 < n ∨ !(rest.isEmpty ∨ rest.head? = some '\\') then .error .portNumber
    else if digits.isEmpty ∨ impliedPortNumber scheme = some n then .ok (none, rest)
    else .ok (some n, rest)

/-- An authority, and what is left of the text. -/
def parseAuthority (scheme : String) (cs : List Char) :
    Except UrlError (Authority × List Char) := do
  let (who, machine) := userinfo cs
  let (user, password) := Reference.divide ':' (who.getD [])
  let (host, number) := splitHost false machine
  if host.isEmpty ∧ (hasDomains scheme ∨ who.isSome ∨ !number.isEmpty) then
    throw .emptyHost
  let host ← if hasDomains scheme then Host.parse host else Host.parseText host
  let (number, rest) ← portNumber? scheme number
  pure (⟨String.ofList (escape .userinfo user),
    String.ofList (escape .userinfo (password.getD [])), host, number⟩, rest)

/-- An address from what follows the two slashes. -/
def ofAuthority (scheme : String) (cs : List Char) (r : Reference) : Except UrlError Url := do
  let front := cs.takeWhile fun c => !isSlash scheme c
  let (authority, rest) ← parseAuthority scheme front
  let path := absolutePath scheme (rest ++ cs.dropWhile fun c => !isSlash scheme c)
  pure ⟨scheme, some authority, path, r.queryText scheme, r.fragmentText⟩

/-! ## Relative texts -/

/-- A text without a scheme of its own, relative to a base. -/
def relative (base : Url) (names : List String) (cs : List Char) (r : Reference) :
    Except UrlError Url :=
  let within (path : UrlPath) (query : Option String) : Url :=
    { base with path, query, fragment := r.fragmentText }
  let slashes := cs.takeWhile isAnySlash
  match cs with
  | [] => .ok (within base.path (if r.query.isSome then r.queryText base.scheme else base.query))
  | '/' :: '/' :: rest => ofAuthority base.scheme rest r
  | c :: rest =>
    if 2 ≤ slashes.length then ofAuthority base.scheme (cs.dropWhile isAnySlash) r
    else if isAnySlash c then
      .ok (within (extend base.scheme [] rest) (r.queryText base.scheme))
    else .ok (within (extend base.scheme names.dropLast cs) (r.queryText base.scheme))

/-! ## Files -/

/-- Empty names at the start of the path of a file do not count. -/
def filePath (path : UrlPath) : UrlPath :=
  match path with
  | .names all =>
    let used := all.dropWhile (· == "")
    .names (if used.isEmpty then [""] else used)
  | flat => flat

/-- The first name of a path, if it is a drive. -/
def driveOf? : UrlPath → Option String
  | .names (name :: _) => if isDrive name.toList then some name else none
  | _ => none

/-- This machine. -/
def thisMachine : Authority := ⟨"", "", .plain "", none⟩

/-- The address of a file, from what follows the scheme; this machine is not named, and neither is
any other before a drive. -/
def ofFile (base : Option Url) (cs : List Char) (r : Reference) : Except UrlError Url := do
  let file (host : Authority) (path : UrlPath) : Url :=
    ⟨"file", some host, filePath path, r.queryText "file", r.fragmentText⟩
  let names := match base.map (·.path) with
    | some (.names all) => all
    | _ => []
  let host := (base.bind (·.authority)).getD thisMachine
  match cs, base with
  | [], some b =>
    pure { b with
      query := if r.query.isSome then r.queryText "file" else b.query
      fragment := r.fragmentText }
  | [], none => pure (file thisMachine (.names [""]))
  | a :: rest, _ =>
    match isAnySlash a, rest with
    | true, b :: rest =>
      if !isAnySlash b then pure (single file host names (b :: rest))
      else if startsWithDrive rest then pure (file thisMachine (extend "file" [] rest))
      else
        let name := rest.takeWhile fun c => !isAnySlash c
        let path := extend "file" [] ((rest.dropWhile fun c => !isAnySlash c).drop 1)
        if name.isEmpty then pure (file thisMachine path)
        else
          let named ← Host.parse name
          let isHere := named = .domain "localhost" ∨ (driveOf? path).isSome
          pure (file (if isHere then thisMachine else { thisMachine with host := named }) path)
    | true, [] => pure (single file host names [])
    | false, _ =>
      if startsWithDrive cs then pure (file thisMachine (extend "file" [] cs))
      else pure (file host (extend "file" (leave names) cs))
where
  /-- The address of a file after a single slash, in the drive of the base if there is one. -/
  single (file : Authority → UrlPath → Url) (host : Authority) (names : List String)
      (cs : List Char) : Url :=
    if startsWithDrive cs then file thisMachine (extend "file" [] cs)
    else
      match driveOf? (.names names) with
      | some drive => file thisMachine (extend "file" [drive] cs)
      | none => file host (extend "file" [] cs)

/-! ## Addresses -/

/-- An address with a scheme of its own. -/
def ofScheme (base : Option Url) (scheme : String) (cs : List Char) (r : Reference) :
    Except UrlError Url :=
  if scheme = "file" then ofFile (base.filter fun b => b.scheme = "file") cs r
  else if hasDomains scheme then
    let slashes := cs.takeWhile isAnySlash
    match base.filter fun b => b.scheme = scheme ∧ slashes.length < 2 with
    | some b =>
      match b.path with
      | .names names => relative b names cs r
      | .flat _ => .error .flatBase
    | none => ofAuthority scheme (cs.dropWhile isAnySlash) r
  else
    match cs with
    | '/' :: '/' :: rest => ofAuthority scheme rest r
    | '/' :: rest => .ok ⟨scheme, none, extend scheme [] rest, r.queryText scheme, r.fragmentText⟩
    | _ => .ok ⟨scheme, none, .flat (String.ofList (escape .control cs)), r.queryText scheme,
        r.fragmentText⟩

/-- An address without a scheme of its own. -/
def ofBase (base : Url) (r : Reference) : Except UrlError Url :=
  if r.body.isEmpty && r.query.isNone && r.fragment.isSome then
    .ok { base with fragment := r.fragmentText }
  else
    match base.path with
    | .flat _ => .error .flatBase
    | .names names =>
      if base.scheme = "file" then ofFile (some base) r.body r else relative base names r.body r

/-- The address that a text stands for, relative to a base if there is one. -/
def resolve (base : Option Url) (text : String) : Except UrlError Url :=
  let r := Reference.ofText text
  match scheme? r.body, base with
  | some (scheme, rest), _ => ofScheme base scheme rest r
  | none, some b => ofBase b r
  | none, none => .error .noBase

def parse (text : String) : Except UrlError Url := resolve none text

/-- A text relative to a base. -/
def join (base : Url) (text : String) : Except UrlError Url := resolve (some base) text

end Url

end ContentSync
