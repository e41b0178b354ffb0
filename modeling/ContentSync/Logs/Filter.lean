import ContentSync.Logs.Pattern

/-!
# Log filters

A filter is a list of directives, separated by commas. A directive is a level, a target, or a
target, a span with a field, and a level: `info`, `app`, `app[span]=debug`. The value of a field is
a number or a pattern.

* `Level.parse?` — a level by name, in either case, or by number;
* `Directive.parse?` — one directive;
* `Directive.parseAll?` — a filter.
-/

set_option autoImplicit false

namespace ContentSync.Logs

/-- How much is logged. -/
inductive Level where
  | off
  | error
  | warn
  | info
  | debug
  | trace
  deriving DecidableEq, Repr

/-- Levels in the order of their numbers. -/
def Level.all : List Level := [off, error, warn, info, debug, trace]

def Level.name : Level → String
  | off => "off"
  | error => "error"
  | warn => "warn"
  | info => "info"
  | debug => "debug"
  | trace => "trace"

/-- A natural number, which a plus sign may precede. -/
def number? (cs : List Char) : Option Nat :=
  let digits := match cs with
    | '+' :: rest => rest
    | cs => cs
  if digits.isEmpty || !digits.all Char.isDigit then none
  else some (digits.foldl (fun n c => 10 * n + (c.toNat - '0'.toNat)) 0)

/-- A level by number or by name; no text at all stands for errors. -/
def Level.parse? (cs : List Char) : Option Level :=
  match number? cs with
  | some n => Level.all[n]?
  | none =>
    if cs.isEmpty then some .error
    else Level.all.find? fun l => l.name.toList = cs.map Char.toLower

/-! ## Fields -/

/-- Whether a text is one or more digits. -/
def isDigits (cs : List Char) : Bool := !cs.isEmpty && cs.all Char.isDigit

/-- A text without the sign before it. -/
def unsigned : List Char → List Char
  | '+' :: rest | '-' :: rest => rest
  | cs => cs

/-- Whether a text is a number: infinite, none at all, or decimal with a point and an exponent. -/
def isNumber (cs : List Char) : Bool :=
  let body := (unsigned cs).map Char.toLower
  let mantissa := body.takeWhile (· != 'e')
  let whole := mantissa.takeWhile (· != '.')
  let fraction := (mantissa.dropWhile (· != '.')).drop 1
  let exponent := match body.dropWhile (· != 'e') with
    | [] => true
    | _ :: rest => isDigits (unsigned rest)
  ["inf", "infinity", "nan"].contains (String.ofList body)
    || (isDigits (whole ++ fraction) && exponent)

/-- Whether a text can be the value of a field. -/
def isFieldValue (cs : List Char) : Bool := isNumber cs || Pattern.isWellFormed cs

/-- A field of a span, of which the value may be left out. Nothing is said after a second sign of
equality. -/
structure FieldMatch where
  name : String
  value : Option String
  deriving DecidableEq, Repr

def FieldMatch.parse? (cs : List Char) : Option FieldMatch :=
  match Text.parts (· == '=') cs with
  | name :: value :: _ =>
    if isFieldValue value then some ⟨String.ofList name, some (String.ofList value)⟩ else none
  | _ => if cs.isEmpty then none else some ⟨String.ofList cs, none⟩

/-! ## Directives -/

/-- One directive. -/
structure Directive where
  target : Option String
  span : Option String
  fields : List FieldMatch
  level : Level
  deriving DecidableEq, Repr

/-- A text without its first bytes, unless they end within a character. -/
def dropBytes? : Nat → List Char → Option (List Char)
  | 0, cs => some cs
  | _, [] => none
  | n, c :: cs => if n < c.utf8Size then none else dropBytes? (n - c.utf8Size) cs

/-- The first bytes of a text, unless they end within a character. -/
def takeBytes? : Nat → List Char → Option (List Char)
  | 0, _ => some []
  | _, [] => none
  | n, c :: cs => if n < c.utf8Size then none else (takeBytes? (n - c.utf8Size) cs).map (c :: ·)

namespace Directive

/-- Where the reading of a directive stands, with the byte at which an open part starts. -/
inductive State where
  | start
  | levelOrTarget (first : Nat)
  | span (first : Nat)
  | field (first : Nat)
  | fields
  | target
  | level (first : Nat)
  deriving DecidableEq, Repr

/-- Whether a directive may start with a character. -/
def startsWith (c : Char) : Bool := c == '-' || c == ':' || c == '_' || Text.isAlphanumeric c

/-- The part of a text from one byte to another. -/
def slice? (text : List Char) (first last : Nat) : Option (List Char) :=
  (dropBytes? first text).bind (takeBytes? (last - first))

/-- Reads a character at a byte; `none` when it cannot stand there. -/
def step (text : List Char) (d : Directive) (s : State) (i : Nat) (c : Char) :
    Option (Directive × State) :=
  match s with
  | .start =>
    if c = '[' then some (d, .span (i + 1))
    else if startsWith c then some (d, .levelOrTarget i) else none
  | .levelOrTarget first =>
    if c = '=' then do
      let target ← slice? text first i
      some ({ d with target := some (String.ofList target) }, .level (i + 1))
    else if c = '[' then do
      let target ← slice? text first i
      some ({ d with target := some (String.ofList target) }, .span (i + 1))
    else some (d, s)
  | .span first =>
    if c = ']' then do
      let span ← slice? text first i
      some ({ d with span := some (String.ofList span) }, .target)
    else if c = '\x7b' then do
      let span ← slice? text first i
      let span := if span.isEmpty then none else some (String.ofList span)
      some ({ d with span }, .field (i + 1))
    else some (d, s)
  | .field first =>
    if c = '\x7d' then do
      let field ← (slice? text first i).bind FieldMatch.parse?
      some ({ d with fields := d.fields ++ [field] }, .fields)
    else some (d, s)
  | .fields => if c = ']' then some (d, .target) else none
  | .target => if c = '=' then some (d, .level (i + 1)) else none
  | .level _ => some (d, s)

/-- The end of a directive. -/
def finish (text : List Char) (d : Directive) : State → Option Directive
  | .levelOrTarget first => do
    let rest ← dropBytes? first text
    match Level.parse? rest with
    | some level => some { d with level := level, target := none }
    | none => some { d with level := .trace, target := some (String.ofList rest) }
  | .level first => do
    let rest ← dropBytes? first text
    if rest.isEmpty then some { d with level := .trace }
    else (Level.parse? rest).map fun level => { d with level := level }
  | .target => some d
  | _ => none

/-- Reads on from a byte. -/
def run (text : List Char) (d : Directive) (s : State) (i : Nat) : List Char → Option Directive
  | [] => d.finish text s
  | c :: rest =>
    match d.step text s i c with
    | some (d, s) => run text d s (i + c.utf8Size) rest
    | none => none

/-- A directive that says nothing but to log everything. -/
def everything : Directive := ⟨none, none, [], .trace⟩

/-- Reads one directive. Blanks at its ends do not count when its parts are found, but the parts are
taken from the whole text; so blanks before them move them. -/
def parse? (text : List Char) : Option Directive := everything.run text .start 0 (Text.trimChars text)

/-- Reads a filter. Empty parts do not count. -/
def parseAll? (filter : String) : Option (List Directive) :=
  ((Text.parts (· == ',') filter.toList).filter fun part => !part.isEmpty).mapM parse?

end Directive

end ContentSync.Logs
