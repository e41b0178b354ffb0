/-!
# Punycode

A label of a domain name that holds letters outside ASCII is written with ASCII letters: first its
ASCII characters, then, after a dash, where the others go. Those are inserted in the order of their
code points; the distance from one place to the next is a number in variable-length digits of base
36, whose weights adapt to the distances so far.

* `Punycode.encode` — the ASCII form of a label;
* `Punycode.decode?` — the label of an ASCII form.
-/

set_option autoImplicit false

namespace ContentSync.Punycode

/-- The letter or figure of a digit. -/
def digit (n : Nat) : Char := if n < 26 then Char.ofNat (97 + n) else Char.ofNat (22 + n)

/-- The value of a digit; letters may be of either case. -/
def value? (c : Char) : Option Nat :=
  if 'a' ≤ c ∧ c ≤ 'z' then some (c.toNat - 97)
  else if 'A' ≤ c ∧ c ≤ 'Z' then some (c.toNat - 65)
  else if '0' ≤ c ∧ c ≤ '9' then some (c.toNat - 22)
  else none

/-- The least value of a digit at a position after which another digit follows. -/
def threshold (position bias : Nat) : Nat := max 1 (min 26 (position - bias))

/-- How often a distance is divided before it is small, and what then remains. -/
def shrink (distance steps : Nat) : Nat × Nat :=
  if 455 < distance then shrink (distance / 35) (steps + 1) else (distance, steps)
  termination_by distance
  decreasing_by exact Nat.div_lt_self (by omega) (by omega)

/-- The bias after a distance, with the number of characters placed so far. -/
def adapt (distance placed : Nat) (first : Bool) : Nat :=
  let scaled := distance / (if first then 700 else 2)
  let (rest, steps) := shrink (scaled + scaled / placed) 0
  36 * steps + 36 * rest / (rest + 38)

/-- The digits of a number, the least significant first. -/
def digits (bias position n : Nat) : List Char :=
  let t := threshold position bias
  if n < t then [digit n]
  else digit (t + (n - t) % (36 - t)) :: digits bias (position + 36) ((n - t) / (36 - t))
  termination_by n
  decreasing_by
    have : 1 ≤ threshold position bias := Nat.le_max_left _ _
    exact Nat.lt_of_le_of_lt (Nat.div_le_self _ _) (by omega)

/-- What an encoder has written and where it stands. -/
structure Encoder where
  written : List Char
  distance : Nat
  bias : Nat
  placed : Nat

/-- Passes one character of the label while the characters with a code point are being placed. -/
def Encoder.pass (basic point : Nat) (e : Encoder) (c : Char) : Encoder :=
  if c.toNat < point then { e with distance := e.distance + 1 }
  else if c.toNat = point then
    ⟨e.written ++ digits e.bias 36 e.distance, 0,
      adapt e.distance (e.placed + 1) (e.placed == basic), e.placed + 1⟩
  else e

/-- Places the characters with each of the given code points, which increase. -/
def Encoder.place (label : List Char) (basic : Nat) (e : Encoder) (last : Nat) :
    List Nat → Encoder
  | [] => e
  | point :: rest =>
    let skipped := { e with distance := e.distance + (point - last) * (e.placed + 1) }
    let passed := label.foldl (pass basic point) skipped
    place label basic { passed with distance := passed.distance + 1 } (point + 1) rest

/-- The code points of a label outside ASCII, each once, in increasing order. -/
def points (label : List Char) : List Nat :=
  ((label.map Char.toNat).filter (128 ≤ ·)).mergeSort.eraseDups

def encode (label : List Char) : List Char :=
  let basic := label.filter fun c => c.toNat < 128
  let start : Encoder := ⟨if basic.isEmpty then [] else basic ++ ['-'], 0, 72, basic.length⟩
  (start.place label basic.length 128 (points label)).written

/-- Reads a number, with what follows it; the weight grows with each digit. -/
def number? (bias position weight total : Nat) : List Char → Option (Nat × List Char)
  | [] => none
  | c :: rest => do
    let d ← value? c
    let t := threshold position bias
    if d < t then some (total + d * weight, rest)
    else number? bias (position + 36) (weight * (36 - t)) (total + d * weight) rest

/-- Inserts characters as the numbers tell, at most `fuel` of them. -/
def insert? (fuel bias point place : Nat) (label cs : List Char) : Option (List Char) :=
  match fuel, cs with
  | _, [] => some label
  | 0, _ => none
  | fuel + 1, cs => do
    let (total, rest) ← number? bias 36 1 place cs
    let size := label.length + 1
    let point := point + total / size
    if point < 0xD800 ∨ (0xDFFF < point ∧ point < 0x110000) then
      insert? fuel (adapt (total - place) size (place == 0)) point
        (total % size + 1) (label.insertIdx (total % size) (Char.ofNat point)) rest
    else none

/-- The ASCII characters before the last dash, and what follows it. -/
def divide (cs : List Char) : List Char × List Char :=
  let tail := (cs.reverse.takeWhile (· != '-')).reverse
  (cs.take (cs.length - tail.length - 1), tail)

def decode? (cs : List Char) : Option (List Char) :=
  let (basic, inserted) := divide cs
  if basic.any (fun c => 128 ≤ c.toNat) then none
  else insert? inserted.length 72 128 0 basic inserted

end ContentSync.Punycode
