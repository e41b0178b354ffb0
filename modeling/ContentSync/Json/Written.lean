import ContentSync.Json.Basic

/-!
# JSON texts as written

Reading a JSON text takes two steps. The grammar turns the text into a `Written` tree, in which
members keep their order and repetitions and neither numbers nor escapes are interpreted yet. What a
tree means is decided afterwards, by `Written.value?` for a payload, or by the decoders of records,
which look only at the members they know.

* `Written.parse?` — the grammar; blanks are space, tab, line feed and carriage return;
* `Quoted.text?` — the text of a string, `none` when a surrogate has no partner;
* `Literal.number?` — the number of a literal, `none` when it is beyond the largest float;
* `Written.value?` — the value, `none` when something inside has none or containers nest too deep;
* `Json.parse?` — the two steps together.
-/

set_option autoImplicit false

namespace ContentSync

open Binary

/-- A piece of a string literal: a character, or an escaped 16-bit unit. -/
inductive Piece where
  | char (c : Char)
  | unit (value : Nat)
  deriving DecidableEq, Repr

/-- The inside of a string literal. -/
abbrev Quoted := List Piece

/-- A number literal: sign, integer digits, digits after the point, exponent. -/
structure Literal where
  negative : Bool
  whole : List Char
  fraction : Option (List Char)
  exponent : Option (Bool × List Char)
  deriving DecidableEq, Repr

/-- A JSON text as written. -/
inductive Written where
  | null
  | bool (value : Bool)
  | number (literal : Literal)
  | string (quoted : Quoted)
  | array (items : List Written)
  | object (members : List (Quoted × Written))
  deriving Repr, Inhabited

/-! ## Strings -/

namespace Quoted

def isHighSurrogate (unit : Nat) : Bool := 0xD800 ≤ unit && unit ≤ 0xDBFF

def isLowSurrogate (unit : Nat) : Bool := 0xDC00 ≤ unit && unit ≤ 0xDFFF

/-- The characters a literal stands for. Two escaped surrogates that follow each other are one
character, any other surrogate is none. -/
def chars? : Quoted → Option (List Char)
  | [] => some []
  | .char c :: rest => (chars? rest).map (c :: ·)
  | .unit high :: .unit low :: rest =>
    if isHighSurrogate high then
      if isLowSurrogate low then
        (chars? rest).map (Char.ofNat (0x10000 + (high - 0xD800) * 0x400 + (low - 0xDC00)) :: ·)
      else none
    else if isLowSurrogate high then none
    else (chars? (.unit low :: rest)).map (Char.ofNat high :: ·)
  | .unit u :: rest =>
    if isHighSurrogate u || isLowSurrogate u then none
    else (chars? rest).map (Char.ofNat u :: ·)

def text? (q : Quoted) : Option String := (chars? q).map String.ofList

end Quoted

/-! ## Numbers -/

/-- The number that a run of decimal digits denotes. -/
def digitsValue (digits : List Char) : Nat :=
  digits.foldl (fun n c => 10 * n + (c.toNat - '0'.toNat)) 0

namespace Literal

/-- Reads digits while the number they form fits 64 bits. Gives the number, how many digits were
read, and how many were left. -/
def significant (limit : Nat) : Nat → List Char → Nat × Nat × Nat
  | n, [] => (n, 0, 0)
  | n, c :: rest =>
    let next := 10 * n + (c.toNat - '0'.toNat)
    if limit < next then (n, 0, rest.length + 1)
    else
      let (value, read, left) := significant limit next rest
      (value, read + 1, left)

/-- The exponent, which saturates at the ends of 32-bit integers. -/
def clampExponent (e : Int) : Int := max (-2147483648) (min e 2147483647)

/-- The float of a literal. Integer digits beyond 64 bits count as zeros and later digits of the
fraction are dropped. -/
def float? (l : Literal) : Option Number :=
  let (whole, _, beyond) := significant Number.largestInteger 0 l.whole
  let (digits, places, _) :=
    if beyond = 0 then significant Number.largestInteger whole (l.fraction.getD [])
    else
      match l.fraction with
      | none => (whole, 0, 0)
      | some fraction => significant Number.largestInteger whole fraction
  let start : Int := (beyond : Int) - places
  let sized : Option Magnitude :=
    match l.exponent with
    | none => double.ofDecimal? digits start
    | some (down, exponent) =>
      let e := digitsValue exponent
      if 2147483647 < e then
        if digits = 0 ∨ down then some double.zero else none
      else double.ofDecimal? digits (clampExponent (if down then start - e else start + e))
  sized.map (.float l.negative ·)

/-- The number of a literal. A literal without fraction and exponent that fits 64 bits is an
integer, except `-0`, which is a float. -/
def number? (l : Literal) : Option Number :=
  match l.fraction, l.exponent with
  | none, none =>
    let n := digitsValue l.whole
    if l.negative then
      if n = 0 then some (.float true double.zero)
      else if n ≤ Number.smallestInteger then some (.integer (-(n : Int)))
      else l.float?
    else if n ≤ Number.largestInteger then some (.integer n) else l.float?
  | _, _ => l.float?

end Literal

/-! ## The grammar -/

namespace Written

def isBlank (c : Char) : Bool := c == ' ' || c == '\t' || c == '\n' || c == '\r'

def skipBlanks (cs : List Char) : List Char := cs.dropWhile isBlank

def hexValue? (c : Char) : Option Nat :=
  if '0' ≤ c && c ≤ '9' then some (c.toNat - '0'.toNat)
  else if 'a' ≤ c && c ≤ 'f' then some (c.toNat - 'a'.toNat + 10)
  else if 'A' ≤ c && c ≤ 'F' then some (c.toNat - 'A'.toNat + 10)
  else none

/-- Four hexadecimal digits. -/
def hexUnit? : List Char → Option (Nat × List Char)
  | a :: b :: c :: d :: rest => do
    let w ← hexValue? a
    let x ← hexValue? b
    let y ← hexValue? c
    let z ← hexValue? d
    pure (((w * 16 + x) * 16 + y) * 16 + z, rest)
  | _ => none

/-- The inside of a string and what follows its closing quote. Control characters must be escaped.
-/
def quoted? (fuel : Nat) (cs : List Char) : Option (Quoted × List Char) :=
  match fuel, cs with
  | 0, _ => none
  | _, [] => none
  | _, '"' :: rest => some ([], rest)
  | fuel + 1, '\\' :: 'u' :: rest => do
    let (u, rest) ← hexUnit? rest
    let (q, rest) ← quoted? fuel rest
    pure (.unit u :: q, rest)
  | fuel + 1, '\\' :: c :: rest => do
    let c ← match c with
      | '"' => some '"'
      | '\\' => some '\\'
      | '/' => some '/'
      | 'b' => some '\x08'
      | 'f' => some '\x0c'
      | 'n' => some '\n'
      | 'r' => some '\r'
      | 't' => some '\t'
      | _ => none
    let (q, rest) ← quoted? fuel rest
    pure (.char c :: q, rest)
  | fuel + 1, c :: rest =>
    if c < ' ' || c == '\\' then none
    else do
      let (q, rest) ← quoted? fuel rest
      pure (.char c :: q, rest)

/-- A non-empty run of digits. -/
def digits? (cs : List Char) : Option (List Char × List Char) :=
  match cs.takeWhile Char.isDigit with
  | [] => none
  | digits => some (digits, cs.dropWhile Char.isDigit)

/-- Integer digits: no zero stands before another digit. -/
def wholeDigits? : List Char → Option (List Char × List Char)
  | '0' :: c :: rest => if c.isDigit then none else some (['0'], c :: rest)
  | cs => digits? cs

def fraction? : List Char → Option (Option (List Char) × List Char)
  | '.' :: rest => (digits? rest).map fun (d, rest) => (some d, rest)
  | cs => some (none, cs)

def exponent? : List Char → Option (Option (Bool × List Char) × List Char)
  | c :: rest =>
    if c == 'e' || c == 'E' then
      match rest with
      | '-' :: rest => (digits? rest).map fun (d, rest) => (some (true, d), rest)
      | '+' :: rest => (digits? rest).map fun (d, rest) => (some (false, d), rest)
      | rest => (digits? rest).map fun (d, rest) => (some (false, d), rest)
    else some (none, c :: rest)
  | [] => some (none, [])

def literal? (cs : List Char) : Option (Literal × List Char) := do
  let (negative, cs) := match cs with
    | '-' :: rest => (true, rest)
    | cs => (false, cs)
  let (whole, cs) ← wholeDigits? cs
  let (fraction, cs) ← fraction? cs
  let (exponent, cs) ← exponent? cs
  pure (⟨negative, whole, fraction, exponent⟩, cs)

mutual

/-- A value, after blanks. The fuel bounds the number of steps and is the length of the text. -/
def tree? (fuel : Nat) (cs : List Char) : Option (Written × List Char) :=
  match fuel with
  | 0 => none
  | fuel + 1 =>
    match skipBlanks cs with
    | 'n' :: 'u' :: 'l' :: 'l' :: rest => some (.null, rest)
    | 't' :: 'r' :: 'u' :: 'e' :: rest => some (.bool true, rest)
    | 'f' :: 'a' :: 'l' :: 's' :: 'e' :: rest => some (.bool false, rest)
    | '"' :: rest => (quoted? (rest.length + 1) rest).map fun (q, rest) => (.string q, rest)
    | '[' :: rest =>
      match skipBlanks rest with
      | ']' :: rest => some (.array [], rest)
      | rest => (items? fuel rest).map fun (items, rest) => (.array items, rest)
    | '{' :: rest =>
      match skipBlanks rest with
      | '}' :: rest => some (.object [], rest)
      | rest => (members? fuel rest).map fun (members, rest) => (.object members, rest)
    | cs => (literal? cs).map fun (l, rest) => (.number l, rest)

/-- One or more values, up to the closing bracket. -/
def items? (fuel : Nat) (cs : List Char) : Option (List Written × List Char) :=
  match fuel with
  | 0 => none
  | fuel + 1 => do
    let (item, rest) ← tree? fuel cs
    match skipBlanks rest with
    | ']' :: rest => pure ([item], rest)
    | ',' :: rest =>
      let (items, rest) ← items? fuel rest
      pure (item :: items, rest)
    | _ => none

/-- One or more members, up to the closing brace. -/
def members? (fuel : Nat) (cs : List Char) : Option (List (Quoted × Written) × List Char) :=
  match fuel with
  | 0 => none
  | fuel + 1 =>
    match skipBlanks cs with
    | '"' :: rest => do
      let (key, rest) ← quoted? (rest.length + 1) rest
      match skipBlanks rest with
      | ':' :: rest =>
        let (value, rest) ← tree? fuel rest
        match skipBlanks rest with
        | '}' :: rest => pure ([(key, value)], rest)
        | ',' :: rest =>
          let (members, rest) ← members? fuel rest
          pure ((key, value) :: members, rest)
        | _ => none
      | _ => none
    | _ => none

end

/-- The tree of a text that holds one value and nothing else but blanks. -/
def parse? (text : String) : Option Written :=
  let cs := text.toList
  match tree? (cs.length + 1) cs with
  | some (tree, rest) => if (skipBlanks rest).isEmpty then some tree else none
  | none => none

/-! ## Meaning -/

/-- How many containers may be nested in each other. -/
def nestingLimit : Nat := 127

mutual

/-- The value of a tree with room for that many nested containers. -/
def valueWithin? (room : Nat) : Written → Option Json
  | .null => some .null
  | .bool b => some (.bool b)
  | .number l => l.number?.map .number
  | .string q => (Quoted.text? q).map .string
  | .array items => if room = 0 then none else (itemsWithin? (room - 1) items).map .array
  | .object members =>
    if room = 0 then none else (membersWithin? (room - 1) members).map Json.ofMembers

def itemsWithin? (room : Nat) : List Written → Option (List Json)
  | [] => some []
  | w :: rest => do
    let v ← valueWithin? room w
    let vs ← itemsWithin? room rest
    pure (v :: vs)

def membersWithin? (room : Nat) : List (Quoted × Written) → Option (List (String × Json))
  | [] => some []
  | (q, w) :: rest => do
    let k ← Quoted.text? q
    let v ← valueWithin? room w
    let ms ← membersWithin? room rest
    pure ((k, v) :: ms)

end

/-- The value of a tree. -/
def value? (w : Written) : Option Json := w.valueWithin? nestingLimit

end Written

/-- The value of a JSON text. -/
def Json.parse? (text : String) : Option Json := (Written.parse? text).bind Written.value?

end ContentSync
