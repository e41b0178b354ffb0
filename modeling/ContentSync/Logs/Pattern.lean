import ContentSync.Logs.Pattern.Brackets

/-!
# Search patterns

The value of a field in a log filter is a pattern: characters, classes, groups, alternatives and
repetitions. Counted repetitions do not occur, because the brace that would end them ends the field.

* `Pattern.Scan.step?` — reads one part of a pattern;
* `Pattern.isWellFormed` — whether a text is a pattern.
-/

set_option autoImplicit false

namespace ContentSync.Logs.Pattern

/-- How deep a pattern may be nested. -/
def nestLimit : Nat := 250

/-- The part of a pattern outside the group that is being read: how deep each part is since the last
bar, and how deep the alternatives before it are. Flags alone are no part that can be repeated. -/
structure Frame where
  flags : PatternFlags
  parts : List (Option Nat)
  alternatives : List Nat
  deriving DecidableEq, Repr

namespace Frame

def empty (flags : PatternFlags) : Frame := ⟨flags, [], []⟩

/-- How deep the parts since the last bar are. -/
def current (f : Frame) : Nat := nesting (f.parts.map fun part => part.getD 0)

/-- How deep all of it is. -/
def depth (f : Frame) : Nat := nesting (f.current :: f.alternatives)

def add (f : Frame) (part : Option Nat) : Frame := { f with parts := part :: f.parts }

end Frame

/-- What has been read: the group that is open, those around it, and the names of groups. -/
structure Scan where
  here : Frame
  outer : List Frame
  names : List (List Char)
  deriving DecidableEq, Repr

/-- The flags of a group, and what follows them. Each may be given once, and a dash before those
that are taken away. -/
def flags? (f : PatternFlags) (on : Bool) (seen : List Char) :
    List Char → Option (PatternFlags × List Char × List Char)
  | [] => none
  | c :: cs =>
    if c = ':' ∨ c = ')' then
      if seen.head? = some '-' then none else some (f, seen, c :: cs)
    else if seen.contains c then none
    else if c = '-' then flags? f false (c :: seen) cs
    else if c = 'i' then flags? { f with ignoresCase := on } on (c :: seen) cs
    else if c = 'u' then flags? { f with unicode := on } on (c :: seen) cs
    else if c = 'x' then flags? { f with verbose := on } on (c :: seen) cs
    else if ['m', 's', 'U', 'R'].contains c then flags? f on (c :: seen) cs
    else none

/-- Whether a text names a group. -/
def isName : List Char → Bool
  | [] => false
  | c :: cs =>
    (c == '_' || Text.isAlphabetic c)
      && cs.all fun c => ['_', '.', '[', ']'].contains c || Text.isAlphanumeric c

namespace Scan

/-- Opens a group with a name. -/
def openNamed? (s : Scan) (cs : List Char) : Option (Scan × List Char) :=
  let name := cs.takeWhile (· != '>')
  match cs.dropWhile (· != '>') with
  | _ :: rest =>
    if !isName name || s.names.contains name then none
    else some (⟨.empty s.here.flags, s.here :: s.outer, name :: s.names⟩, rest)
  | [] => none

/-- Opens a group, after its parenthesis. What looks ahead or behind is not possible. -/
def open? (s : Scan) (cs : List Char) : Option (Scan × List Char) :=
  match s.here.flags.next cs with
  | '?' :: '=' :: _ | '?' :: '!' :: _ | '?' :: '<' :: '=' :: _ | '?' :: '<' :: '!' :: _ => none
  | '?' :: 'P' :: '<' :: rest | '?' :: '<' :: rest => s.openNamed? rest
  | '?' :: rest => do
    let (flags, seen, rest) ← flags? s.here.flags true [] rest
    match rest with
    | ':' :: rest => some ({ s with here := .empty flags, outer := s.here :: s.outer }, rest)
    | _ =>
      if seen.isEmpty then none
      else some ({ s with here := { s.here.add none with flags } }, rest.drop 1)
  | rest => some ({ s with here := .empty s.here.flags, outer := s.here :: s.outer }, rest)

/-- Closes a group. -/
def close? (s : Scan) : Option Scan :=
  match s.outer with
  | [] => none
  | above :: outer => some { s with here := above.add (some (s.here.depth + 1)), outer }

/-- Repeats the part before. -/
def repeat? (s : Scan) : Option Scan :=
  match s.here.parts with
  | some depth :: rest => some { s with here := { s.here with parts := some (depth + 1) :: rest } }
  | _ => none

/-- Adds a symbol. -/
def add? (s : Scan) (symbol : PatternSymbol) : Option Scan :=
  if symbol.fits s.here.flags then some { s with here := s.here.add (some 0) } else none

/-- Reads one part of a pattern. -/
def step? (s : Scan) : List Char → Option (Scan × List Char)
  | [] => none
  | '(' :: cs => s.open? cs
  | ')' :: cs => s.close?.map (·, cs)
  | '|' :: cs =>
    some ({ s with here := { s.here with
      parts := []
      alternatives := s.here.current :: s.here.alternatives } }, cs)
  | '[' :: cs =>
    (Brackets.read? s.here.flags cs).map fun (depth, rest) =>
      ({ s with here := s.here.add (some depth) }, rest)
  | '*' :: '?' :: cs | '+' :: '?' :: cs | '?' :: '?' :: cs => s.repeat?.map (·, cs)
  | '*' :: cs | '+' :: cs | '?' :: cs => s.repeat?.map (·, cs)
  | '\x7b' :: _ => none
  | '\\' :: cs =>
    (PatternSymbol.escaped? s.here.flags cs).bind fun (symbol, rest) => (s.add? symbol).map (·, rest)
  | '.' :: cs => (s.add? .any).map (·, cs)
  | '^' :: cs | '$' :: cs => (s.add? .boundary).map (·, cs)
  | c :: cs => (s.add? (.char c)).map (·, cs)

/-- Reads on to the end. -/
def run (s : Scan) : Nat → List Char → Option Scan
  | 0, _ => none
  | fuel + 1, cs =>
    match s.here.flags.next cs with
    | [] => some s
    | rest => (s.step? rest).bind fun (s, rest) => s.run fuel rest

end Scan

/-- Whether a text is a pattern. -/
def isWellFormed (cs : List Char) : Bool :=
  match (Scan.mk (.empty .usual) [] []).run (cs.length + 1) cs with
  | some s => s.outer.isEmpty && s.here.depth ≤ nestLimit
  | none => false

end ContentSync.Logs.Pattern
