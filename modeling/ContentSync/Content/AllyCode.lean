import ContentSync.Text.Blank
import ContentSync.Json.Decode

/-!
# Ally codes

A player is known by a code of nine digits, which people write with dashes.

* `AllyCode.parse?` — the code of a text, once its blanks at the ends and its dashes are removed.
-/

set_option autoImplicit false

namespace ContentSync

/-- A player's code. -/
structure AllyCode where
  text : String
  deriving DecidableEq, Repr

namespace AllyCode

/-- A text without the blanks at its ends and without dashes. -/
def normalize (raw : String) : List Char := (Text.trimChars raw.toList).filter (· != '-')

/-- Nine digits. -/
def wellFormed (cs : List Char) : Bool := cs.length == 9 && cs.all Char.isDigit

def parse? (raw : String) : Option AllyCode :=
  let digits := normalize raw
  if wellFormed digits then some ⟨String.ofList digits⟩ else none

def json (a : AllyCode) : Json := .string a.text

/-- In records a code is any text. -/
def decode? (w : Written) : Option AllyCode := w.text?.map AllyCode.mk

end AllyCode

end ContentSync
