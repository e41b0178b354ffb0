import ContentSync.Logs.Pattern.Symbol

/-!
# Bracketed classes of search patterns

A class in brackets lists characters, ranges, classes with names and further brackets; it may be
negated, and its parts may be joined by the signs of intersection, difference and symmetric
difference.

* `Brackets.read?` — how deep a class is nested, and what follows it; `none` when it is malformed or
  may not be used under the flags.
-/

set_option autoImplicit false

namespace ContentSync.Logs

/-- How deep a list of parts is nested: a single part as deep as itself. -/
def nesting : List Nat → Nat
  | [] => 0
  | [depth] => depth
  | depths => depths.foldl max 0 + 1

namespace Brackets

/-- A class that is being read: how deep the parts before the last sign are, and the parts after
it. -/
structure Level where
  before : Option Nat
  parts : List Nat
  deriving DecidableEq, Repr

def Level.depth (l : Level) : Nat :=
  match l.before with
  | none => nesting l.parts
  | some before => max before (nesting l.parts) + 1

def Level.add (l : Level) (depth : Nat) : Level := { l with parts := depth :: l.parts }

/-- The names of classes. -/
def names : List String :=
  ["alnum", "alpha", "ascii", "blank", "cntrl", "digit", "graph", "lower", "print", "punct",
    "space", "upper", "word", "xdigit"]

/-- A class with a name, after its bracket: whether it is negated, and what follows it. -/
def named? : List Char → Option (Bool × List Char)
  | ':' :: cs =>
    let negated := cs.head? = some '^'
    let cs := if negated then cs.drop 1 else cs
    match cs.dropWhile (· != ':') with
    | ':' :: ']' :: rest =>
      if names.contains (String.ofList (cs.takeWhile (· != ':'))) then some (negated, rest)
      else none
    | _ => none
  | _ => none

/-- Dashes at the start of a class stand for themselves, and so does a closing bracket. -/
def leading (f : PatternFlags) : Nat → Level → List Char → Level × List Char
  | 0, l, cs => (l, cs)
  | fuel + 1, l, '-' :: cs => leading f fuel (l.add 0) (f.next cs)
  | _, l, ']' :: cs => if l.parts.isEmpty then (l.add 0, f.next cs) else (l, ']' :: cs)
  | _, l, cs => (l, cs)

/-- Opens a class, after its bracket. Where bytes match, a negated class would match parts of
characters. -/
def open? (f : PatternFlags) (cs : List Char) : Option (Level × List Char) :=
  let cs := f.next cs
  let negated := cs.head? = some '^'
  let cs := if negated then f.next (cs.drop 1) else cs
  let (l, rest) := leading f cs.length ⟨none, []⟩ cs
  let sound := l.parts.isEmpty || (PatternSymbol.char '-').fitsClass f
  if rest.isEmpty ∨ (negated ∧ !f.unicode) ∨ !sound then none else some (l, rest)

/-- A character of a class, or a class after a backslash. -/
def symbol? (f : PatternFlags) : List Char → Option (PatternSymbol × List Char)
  | [] => none
  | '\\' :: cs => PatternSymbol.escaped? f cs
  | c :: cs => some (.char c, cs)

/-- A symbol of a class, or a range. A dash before the closing bracket or another dash makes no
range. -/
def range? (f : PatternFlags) (cs : List Char) : Option (List Char) := do
  let (first, rest) ← symbol? f cs
  if !first.fitsClass f then none
  else
    match f.next rest with
    | [] => none
    | '-' :: after =>
      match f.next after with
      | ']' :: _ | '-' :: _ => some ('-' :: after)
      | after => do
        let (last, rest) ← symbol? f after
        if last.fitsClass f ∧ (← first.char?) ≤ (← last.char?) then some rest else none
    | rest => some rest

/-- Reads on in the innermost of some classes until the outermost is closed. -/
def run (f : PatternFlags) : Nat → Level → List Level → List Char → Option (Nat × List Char)
  | 0, _, _, _ => none
  | fuel + 1, l, outer, cs =>
    let sign (rest : List Char) := run f fuel ⟨some l.depth, []⟩ outer rest
    match f.next cs with
    | [] => none
    | '[' :: rest =>
      match named? rest with
      | some (negated, rest) =>
        if (f.unicode && f.ignoresCase) || (!f.unicode && negated) then none
        else run f fuel (l.add 0) outer rest
      | none => (open? f rest).bind fun (inner, rest) => run f fuel inner (l :: outer) rest
    | ']' :: rest =>
      match outer with
      | [] => some (l.depth + 1, rest)
      | above :: outer => run f fuel (above.add (l.depth + 1)) outer rest
    | '&' :: '&' :: rest | '-' :: '-' :: rest | '~' :: '~' :: rest => sign rest
    | rest => (range? f rest).bind fun rest => run f fuel (l.add 0) outer rest

/-- A class, after its bracket. -/
def read? (f : PatternFlags) (cs : List Char) : Option (Nat × List Char) :=
  (open? f cs).bind fun (l, rest) => run f (cs.length + 1) l [] rest

end Brackets

end ContentSync.Logs
