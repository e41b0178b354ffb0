import ContentSync.Text.Blank
import ContentSync.Text.Parts

/-!
# Schedules

A schedule is a line of six or seven fields: second, minute, hour, day of the month, month, day of
the week and, if given, year. A field is `*` or a list of numbers, ranges and steps. Months and days
of the week also have names of three letters. A day may be the last one (`L`), the weekday nearest
to a date (`15W`), the n-th of its name in a month (`MON#2`) or the last of its name (`MONL`).

* `Field` — what a field may hold;
* `Item` — one item of the list in a field, with the occurrence in the month that it selects;
* `Schedule.parse?` — the fields of a schedule, `none` when one of them is out of bounds.
-/

set_option autoImplicit false

namespace ContentSync

namespace Schedule

/-- What a field may hold. -/
structure Field where
  low : Nat
  high : Nat
  /-- `L` stands for the last day. -/
  allowsLast : Bool
  /-- `W` stands for the nearest weekday. -/
  allowsNearest : Bool
  /-- `#` chooses one of several days of a name. -/
  allowsNth : Bool
  /-- The characters besides digits, `*`, `-`, `,` and `/` that may be written. -/
  marks : List Char
  deriving DecidableEq, Repr

def plain (low high : Nat) : Field := ⟨low, high, false, false, false, []⟩

/-- The fields in order. -/
def fields : List Field :=
  [plain 0 59, plain 0 59, plain 0 23, ⟨1, 31, true, true, false, ['L', 'W']⟩, plain 1 12,
    ⟨0, 7, true, false, true, ['#', 'L']⟩, plain 1 5000]

/-- Which of the days of one value in a month are meant. -/
inductive Occurrence where
  | each
  | nth (count : Nat)
  | last
  deriving DecidableEq, Repr

/-- One item of a field. -/
inductive Item where
  | values (first last step : Nat) (occurrence : Occurrence)
  | lastDay
  | nearest (day : Nat)
  deriving DecidableEq, Repr

/-- A number in a field; it fits sixteen bits. -/
def number? (cs : List Char) : Option Nat :=
  if cs.isEmpty || !cs.all Char.isDigit then none
  else
    let n := cs.foldl (fun n c => 10 * n + (c.toNat - '0'.toNat)) 0
    if n < 0x10000 then some n else none

/-- The occurrence that an item selects: a final `L` asks for the last one, and otherwise what
follows the first `#` counts from one to five. -/
def occurrence? (cs : List Char) : Option Occurrence :=
  if cs.getLast? = some 'L' then some .last
  else
    match cs.dropWhile (· ≠ '#') with
    | [] => some .each
    | _ :: count => (number? count).bind fun k => if 1 ≤ k ∧ k ≤ 5 then some (.nth k) else none

/-- An item without its occurrence. -/
def withoutOccurrence (cs : List Char) : List Char := cs.takeWhile (· ≠ '#')

/-- Whether a field knows an occurrence. -/
def Field.knows (f : Field) : Occurrence → Bool
  | .each => true
  | .nth _ => f.allowsNth
  | .last => f.allowsLast

/-- The last value that a range with a step visits. -/
def lastVisited (first last step : Nat) : Nat := first + (last - first) / step * step

/-- The values of a range, if it lies within the bounds of a field and the field knows the
occurrence. A step may not lead out of sixteen bits, not even behind the end of the range. -/
def Field.values? (f : Field) (first last step : Nat) (o : Occurrence) : Option Item :=
  if f.low ≤ first ∧ first ≤ last ∧ last ≤ f.high ∧ 0 < step
      ∧ lastVisited first last step + step < 0x10000 ∧ f.knows o then
    some (.values first last step o)
  else none

/-- The bounds before a step: all of the field, a range, or a number from which on. -/
def Field.bounds? (f : Field) (cs : List Char) : Option (Nat × Nat) :=
  if cs = ['*'] then some (f.low, f.high)
  else
    match Text.parts (· == '-') cs with
    | [first] => (number? first).map fun n => (n, f.high)
    | [first, last] => do pure (← number? first, ← number? last)
    | _ => none

/-- Bounds and a step. -/
def Field.stepped? (f : Field) (cs : List Char) : Option Item := do
  let o ← occurrence? cs
  match Text.parts (· == '/') (withoutOccurrence cs) with
  | [range, step] =>
    let (first, last) ← f.bounds? range
    f.values? first last (← number? step) o
  | _ => none

/-- A first and a last value. -/
def Field.range? (f : Field) (cs : List Char) : Option Item := do
  let o ← occurrence? cs
  match Text.parts (· == '-') (withoutOccurrence cs) with
  | [first, last] => f.values? (← number? first) (← number? last) 1 o
  | _ => none

/-- A single value. -/
def Field.value? (f : Field) (cs : List Char) : Option Item := do
  let o ← occurrence? cs
  let n ← number? (withoutOccurrence cs)
  f.values? n n 1 o

/-- The weekday nearest to the day before the `W`; what follows the `W` does not count. -/
def Field.nearest? (f : Field) (cs : List Char) : Option Item :=
  (number? (cs.takeWhile (· ≠ 'W'))).bind fun n =>
    if f.allowsNearest ∧ f.low ≤ n ∧ n ≤ f.high then some (.nearest n) else none

/-- Puts one text for another wherever it stands. -/
def replaceAll (name value : List Char) : Nat → List Char → List Char
  | 0, cs => cs
  | _, [] => []
  | fuel + 1, c :: rest =>
    if name.isPrefixOf (c :: rest) then
      value ++ replaceAll name value fuel ((c :: rest).drop name.length)
    else c :: replaceAll name value fuel rest

/-- A final `L` without a `#` has the `#` understood. -/
def withMark (cs : List Char) : List Char :=
  if cs.getLast? = some 'L' ∧ ¬ cs.contains '#' then replaceAll ['L'] ['#', 'L'] cs.length cs
  else cs

/-- One item of the list in a field. -/
def Field.item? (f : Field) (cs : List Char) : Option Item :=
  if cs.contains '/' then f.stepped? cs
  else if cs.contains '-' then f.range? cs
  else if cs.contains 'W' then f.nearest? cs
  else if cs = ['L'] then if f.allowsLast then some .lastDay else none
  else f.value? (withMark cs)

/-- Whether a character may be written in a field. -/
def Field.admits (f : Field) (c : Char) : Bool :=
  c.isDigit || ['*', '-', ',', '/'].contains c || f.marks.contains c

/-- A field. Empty items do not count. -/
def Field.parse? (f : Field) (cs : List Char) : Option (List Item) :=
  if !cs.all f.admits then none
  else if cs = ['*'] then some [.values f.low f.high 1 .each]
  else ((Text.parts (· == ',') cs).filter fun item => !item.isEmpty).mapM f.item?

def replaceNames (names : List (String × String)) (cs : List Char) : List Char :=
  names.foldl (fun cs n => replaceAll n.1.toList n.2.toList cs.length cs) cs

/-- The names of days and of months. They stand for their numbers wherever they are written, and at
the end of a range Sunday is the seventh day. -/
def names : List (String × String) :=
  [("-SUN", "-7"), ("SUN", "0"), ("MON", "1"), ("TUE", "2"), ("WED", "3"), ("THU", "4"),
    ("FRI", "5"), ("SAT", "6"), ("JAN", "1"), ("FEB", "2"), ("MAR", "3"), ("APR", "4"),
    ("MAY", "5"), ("JUN", "6"), ("JUL", "7"), ("AUG", "8"), ("SEP", "9"), ("OCT", "10"),
    ("NOV", "11"), ("DEC", "12")]

/-- Schedules that have a name of their own. -/
def nicknames : List (String × String) :=
  [("@YEARLY", "0 0 0 1 1 *"), ("@ANNUALLY", "0 0 0 1 1 *"), ("@MONTHLY", "0 0 0 1 * *"),
    ("@WEEKLY", "0 0 0 * * 0"), ("@DAILY", "0 0 0 * * *"), ("@HOURLY", "0 0 * * * *")]

/-- The capital of a letter, as far as it can be part of a name: besides the letters of the
alphabet these are the long `s` and the `i` without a dot. -/
def capital (c : Char) : Char :=
  if c = 'ſ' then 'S' else if c = 'ı' then 'I' else c.toUpper

/-- The words of a text. -/
def words (cs : List Char) : List (List Char) :=
  (Text.parts Text.isBlank cs).filter fun w => !w.isEmpty

/-- A field for days. A question mark in it stands for any day. -/
def anyDay (cs : List Char) : List Char := cs.map fun c => if c = '?' then '*' else c

/-- The fields of a schedule, once every name is a number. One plus before the day of the week
does not count. -/
def written : List (List Char) → List (List Char)
  | second :: minute :: hour :: day :: month :: weekday :: rest =>
    let weekday := if weekday.head? = some '+' then weekday.tail else weekday
    second :: minute :: hour :: anyDay day :: month :: anyDay weekday :: rest
  | fields => fields

/-- The items of each field of a schedule. -/
def parse? (text : String) : Option (List (List Item)) :=
  let capitals := (Text.trimChars text.toList).map capital
  let long := ((List.lookup (String.ofList capitals) nicknames).map String.toList).getD capitals
  let written := written (words (replaceNames names long))
  if written.length = 6 ∨ written.length = 7 then
    (written.zip fields).mapM fun f => f.2.parse? f.1
  else none

def valid (text : String) : Bool := (parse? text).isSome

/-- The complaint about a schedule. -/
def complaint (text : String) : String := "Invalid sync schedule '" ++ text ++ "'"

end Schedule

end ContentSync
