import ContentSync.Text.Blank
import ContentSync.Text.Letter

/-!
# Symbols of search patterns

A pattern consists of symbols. Flags change what may be written: without tables of letters a pattern
neither ignores case nor knows the classes of figures, blanks and words, unless it is restricted to
ASCII; and then it must not match a part of a character.

* `PatternFlags` — the flags that matter for this;
* `PatternSymbol.escaped?` — the symbol after a backslash;
* `PatternSymbol.fits` — whether a symbol may be used under given flags.
-/

set_option autoImplicit false

namespace ContentSync.Logs

/-- The flags under which a part of a pattern is read. -/
structure PatternFlags where
  /-- Letters match in either case. -/
  ignoresCase : Bool
  /-- Whole characters match, and not bytes. -/
  unicode : Bool
  /-- Blanks and comments may be written between symbols. -/
  verbose : Bool
  deriving DecidableEq, Repr

def PatternFlags.usual : PatternFlags := ⟨false, true, false⟩

/-- Drops blanks and comments, at most `fuel` of them. -/
def dropBlanks : Nat → List Char → List Char
  | 0, cs => cs
  | _, [] => []
  | fuel + 1, c :: cs =>
    if Text.isBlank c then dropBlanks fuel cs
    else if c = '#' then dropBlanks fuel ((cs.dropWhile (· != '\n')).drop 1)
    else c :: cs

/-- Goes on to the next symbol. -/
def PatternFlags.next (f : PatternFlags) (cs : List Char) : List Char :=
  if f.verbose then dropBlanks cs.length cs else cs

/-- What a pattern is made of, besides groups and bracketed classes. -/
inductive PatternSymbol where
  | char (c : Char)
  /-- A byte in hexadecimal. -/
  | byte (c : Char)
  /-- Any character but the end of a line. -/
  | any
  /-- The figures, the blanks or the characters of words, or all others. -/
  | kind (negated : Bool)
  /-- The start or the end of a text or a line. -/
  | boundary
  /-- The start or the end of a word, or neither. -/
  | wordBoundary
  deriving DecidableEq, Repr

namespace PatternSymbol

/-- Whether a symbol may be used under given flags. -/
def fits (f : PatternFlags) : PatternSymbol → Bool
  | char _ => !(f.unicode && f.ignoresCase)
  | byte c => if f.unicode then !f.ignoresCase else c.toNat < 0x80
  | any => f.unicode
  | kind negated => !f.unicode && !negated
  | boundary => true
  | wordBoundary => !f.unicode

/-- Whether a symbol may be used in brackets. Where bytes match, those of ASCII alone. -/
def fitsClass (f : PatternFlags) : PatternSymbol → Bool
  | char c => if f.unicode then !f.ignoresCase else c.toNat < 0x80
  | boundary | wordBoundary | any => false
  | s => s.fits f

/-- The character that a symbol is. -/
def char? : PatternSymbol → Option Char
  | char c | byte c => some c
  | _ => none

def hexValue? (c : Char) : Option Nat :=
  if c.isDigit then some (c.toNat - 48)
  else if 'a' ≤ c ∧ c ≤ 'f' then some (c.toNat - 87)
  else if 'A' ≤ c ∧ c ≤ 'F' then some (c.toNat - 55)
  else none

/-- A number of exactly so many hexadecimal digits. -/
def hexNumber? (f : PatternFlags) (value : Nat) : Nat → List Char → Option (Nat × List Char)
  | 0, cs => some (value, cs)
  | _ + 1, [] => none
  | count + 1, c :: cs =>
    (hexValue? c).bind fun d => hexNumber? f (16 * value + d) count (f.next cs)

/-- A character by its number. -/
def numbered? (f : PatternFlags) (make : Char → PatternSymbol) (count : Nat) (cs : List Char) :
    Option (PatternSymbol × List Char) :=
  (hexNumber? f 0 count (f.next cs)).bind fun (n, rest) =>
    if n < 0xD800 ∨ (0xDFFF < n ∧ n < 0x110000) then some (make (Char.ofNat n), rest) else none

/-- The characters that a backslash makes stand for themselves: those of ASCII that are neither
letters nor figures, but for the two that would be ends of words. -/
def isEscapable (c : Char) : Bool :=
  c.toNat < 0x80 && !c.isAlphanum && c != '<' && c != '>'

/-- The symbol after a backslash. Figures would refer to groups, which is not possible, and there
are no tables for properties of characters. -/
def escaped? (f : PatternFlags) : List Char → Option (PatternSymbol × List Char)
  | [] => none
  | 'x' :: cs => numbered? f byte 2 cs
  | 'u' :: cs => numbered? f char 4 cs
  | 'U' :: cs => numbered? f char 8 cs
  | c :: cs =>
    if isEscapable c then some (char c, cs)
    else if ['d', 's', 'w'].contains c then some (kind false, cs)
    else if ['D', 'S', 'W'].contains c then some (kind true, cs)
    else if ['a', 'f', 't', 'n', 'r', 'v'].contains c then some (char c, cs)
    else if ['A', 'z'].contains c then some (boundary, cs)
    else if ['b', 'B', '<', '>'].contains c then some (wordBoundary, cs)
    else none

end PatternSymbol

end ContentSync.Logs
