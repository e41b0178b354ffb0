import ContentSync.Text.Parts

/-!
# Tables of code points

A table gives values to runs of code points. It is written as a text of words, one for each run, in
increasing order, with all numbers in hexadecimal: `41-5A` is a run, `AA` a single code point, and
what follows the run in its word tells the value.

* `CodeTable.find?` — the run that holds a code point;
* `CodeTable.find?_sound` — that run is one of the table's and does hold it.
-/

set_option autoImplicit false

namespace ContentSync.Text

/-- A run of code points, ends included, with what holds for each of them. -/
structure CodeRun (α : Type) where
  first : Nat
  last : Nat
  value : α

/-- Runs in increasing order. -/
structure CodeTable (α : Type) where
  runs : Array (CodeRun α)

/-- The value of a hexadecimal digit. -/
def hexDigit (c : Char) : Nat := if c.isDigit then c.toNat - 48 else c.toNat - 55

/-- The value of a hexadecimal number. -/
def hexNumber (cs : List Char) : Nat := cs.foldl (fun n c => 16 * n + hexDigit c) 0

def isHexDigit (c : Char) : Bool := c.isDigit || ('A' ≤ c && c ≤ 'F')

namespace CodeRun

/-- A run at the start of a word, with the rest of the word. -/
def ofWord (word : List Char) : CodeRun (List Char) :=
  let first := hexNumber (word.takeWhile isHexDigit)
  match word.dropWhile isHexDigit with
  | '-' :: rest => ⟨first, hexNumber (rest.takeWhile isHexDigit), rest.dropWhile isHexDigit⟩
  | rest => ⟨first, first, rest⟩

end CodeRun

namespace CodeTable

variable {α : Type}

/-- The table of a text; `read` gives a run its value. -/
def ofText (read : CodeRun (List Char) → α) (text : String) : CodeTable α :=
  let words := parts (fun c => c == ' ' || c == '\n') text.toList
  ⟨((words.filter fun word => !word.isEmpty).map fun word =>
    let run := CodeRun.ofWord word
    { run with value := read run }).toArray⟩

/-- The place of the last run, among some from `low` on, that starts no later than a code point. -/
def search (t : CodeTable α) (n low size : Nat) : Nat :=
  if size ≤ 1 then low
  else
    let half := size / 2
    if (t.runs[low + half]?).any fun run => run.first ≤ n then
      t.search n (low + half) (size - half)
    else t.search n low half
  termination_by size
  decreasing_by all_goals omega

/-- The run that holds a code point. -/
def find? (t : CodeTable α) (n : Nat) : Option (CodeRun α) :=
  (t.runs[t.search n 0 t.runs.size]?).filter fun run => run.first ≤ n && n ≤ run.last

def contains (t : CodeTable α) (n : Nat) : Bool := (t.find? n).isSome

theorem find?_sound {t : CodeTable α} {n : Nat} {run : CodeRun α} (h : t.find? n = some run) :
    run ∈ t.runs ∧ run.first ≤ n ∧ n ≤ run.last := by
  obtain ⟨hget, hin⟩ := Option.filter_eq_some_iff.mp h
  simp only [Bool.and_eq_true, decide_eq_true_eq] at hin
  exact ⟨Array.mem_of_getElem? hget, hin⟩

end CodeTable

/-- Code points alone. -/
abbrev CodeSet := CodeTable Unit

def CodeSet.ofText (text : String) : CodeSet := CodeTable.ofText (fun _ => ()) text

end ContentSync.Text
