import ContentSync.Text.Composition
import ContentSync.Text.Percent
import ContentSync.Url.Domain.Direction
import ContentSync.Url.Domain.Joining
import ContentSync.Url.Domain.Spelling
import ContentSync.Url.Punycode

/-!
# Domain names

A domain name is compared and sent in one spelling: lower case, in ASCII, with labels in other
scripts in Punycode.

* `Domain.unicode?` — the labels of a name in their own script, `none` when it is no name;
* `Domain.ascii?` — the spelling of a name in an address.
-/

set_option autoImplicit false

namespace ContentSync.Domain

/-- The characters of ASCII that no name holds. -/
def isForbidden (c : Char) : Bool :=
  c.toNat ≤ 0x20 || c.toNat = 0x7F
    || ['%', '#', '/', ':', '<', '>', '?', '@', '[', '\\', ']', '^', '|'].contains c

/-- The labels of a name, between full stops. -/
def labels (cs : List Char) : List (List Char) := Text.parts (· == '.') cs

def isAscii (cs : List Char) : Bool := cs.all fun c => c.toNat < 0x80

/-- What a label in Punycode starts with. -/
def mark : List Char := ['x', 'n', '-', '-']

/-- The most characters that are written in Punycode, and the most that are read as such. -/
def writtenLimit : Nat := 1000

def readLimit : Nat := 2000

/-- A label in its own script. Every character of it stands for itself. One that is spelled in Punycode
already has to be the spelling of a label that needs it and that is spelled in no other way. -/
def label? (cs : List Char) : Option (List Char) :=
  if mark.isPrefixOf cs then
    if readLimit < cs.length - mark.length then none
    else do
      let label ← Punycode.decode? (cs.drop mark.length)
      if !isAscii label ∧ label.all isPlain ∧ Text.normalize label = label
          ∧ Punycode.encode label = cs.drop mark.length then some label
      else none
  else if cs.all isPlain then some cs
  else none

/-- Whether a label may be part of a name. -/
def labelFits (label : List Char) : Bool :=
  isAscii label || (!(label.head?).any Text.isMark && joinersFit label)

/-- The labels of a name in their own script. -/
def unicode? (name : List Char) : Option (List (List Char)) := do
  let folded ← name.mapM fold
  let found ← (labels (Text.normalize folded.flatten)).mapM label?
  if found.all labelFits && (!found.any isMixed || found.all keepsDirection) then some found
  else none

/-- The spelling of a label. -/
def spell? (label : List Char) : Option (List Char) :=
  if isAscii label then some label
  else if writtenLimit < label.length then none
  else some (mark ++ Punycode.encode label)

/-- The spelling of a name that is given as text. -/
def ofChars? (cs : List Char) : Option (List Char) := do
  let spelled ← (← unicode? cs).mapM spell?
  let name := ['.'].intercalate spelled
  if name.any isForbidden then none else some name

/-- The spelling of a name in an address, where bytes may be percent-encoded. -/
def ascii? (text : List Char) : Option (List Char) := do
  let name ← Text.decodeText? (String.ofList text)
  ofChars? name.toList

end ContentSync.Domain
