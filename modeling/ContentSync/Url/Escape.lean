import ContentSync.Text.Percent

/-!
# Escapes in addresses

Some characters do not stand for themselves in a part of an address; they are written as the
percent-encoded bytes of their UTF-8 form. Which ones depends on the part.

* `EscapeSet.escapes` — the characters that a part does not hold as they are;
* `escape` — a text as it is written in a part; a `%` stands for itself.
-/

set_option autoImplicit false

namespace ContentSync

/-- The parts of an address, by what they escape. -/
inductive EscapeSet where
  /-- A path that is not divided, and the host of a scheme that has no domains. -/
  | control
  | fragment
  | query
  /-- The query of a scheme of the web. -/
  | webQuery
  | path
  | userinfo
  deriving DecidableEq, Repr

namespace EscapeSet

/-- The characters between space and delete that each part escapes. -/
def visible : EscapeSet → List Char
  | control => []
  | fragment => [' ', '"', '<', '>', '\x60']
  | query => [' ', '"', '#', '<', '>']
  | webQuery => [' ', '"', '#', '<', '>', '\'']
  | path => [' ', '"', '<', '>', '\x60', '#', '?', '\x7b', '\x7d']
  | userinfo => [' ', '"', '<', '>', '\x60', '#', '?', '\x7b', '\x7d', '/', ':', ';', '=', '@', '[',
      '\\', ']', '^', '|']

/-- Controls and whatever is not ASCII are escaped everywhere. -/
def escapes (s : EscapeSet) (c : Char) : Bool :=
  c.toNat < 0x20 || 0x7F ≤ c.toNat || s.visible.contains c

end EscapeSet

def escapeChar (s : EscapeSet) (c : Char) : List Char :=
  if s.escapes c then (String.utf8EncodeChar c).flatMap Text.percentEncode else [c]

def escape (s : EscapeSet) (cs : List Char) : List Char := cs.flatMap (escapeChar s)

@[simp] theorem escape_nil (s : EscapeSet) : escape s [] = [] := rfl

@[simp] theorem escape_append (s : EscapeSet) (a b : List Char) :
    escape s (a ++ b) = escape s a ++ escape s b := by
  simp [escape]

theorem escape_eq_self {s : EscapeSet} {cs : List Char} (h : ∀ c ∈ cs, s.escapes c = false) :
    escape s cs = cs := by
  induction cs with
  | nil => rfl
  | cons c rest ih =>
    have hc := h c List.mem_cons_self
    have hr := ih fun x hx => h x (List.mem_cons_of_mem _ hx)
    simp only [escape, List.flatMap_cons] at hr ⊢
    simp [escapeChar, hc, hr]

end ContentSync
