/-!
# Parts of a text

* `parts` — the parts of a text between the characters that separate them; always one more
  than there are separators;
* `parts_append_separator` — a separator ends a part.
-/

set_option autoImplicit false

namespace ContentSync.Text

/-- Adds a character to the first of some parts. -/
def addToFirst (c : Char) : List (List Char) → List (List Char)
  | [] => [[c]]
  | part :: rest => (c :: part) :: rest

/-- The parts between separators. -/
def parts (separates : Char → Bool) : List Char → List (List Char)
  | [] => [[]]
  | c :: cs =>
    if separates c then [] :: parts separates cs else addToFirst c (parts separates cs)

theorem parts_ne_nil (separates : Char → Bool) (cs : List Char) : parts separates cs ≠ [] := by
  cases cs with
  | nil => simp [parts]
  | cons c rest =>
    simp only [parts]
    split
    · simp
    · cases parts separates rest <;> simp [addToFirst]

theorem addToFirst_append {c : Char} {a : List (List Char)} (h : a ≠ []) (b : List (List Char)) :
    addToFirst c (a ++ b) = addToFirst c a ++ b := by
  cases a with
  | nil => exact absurd rfl h
  | cons => rfl

theorem parts_append_separator {separates : Char → Bool} {s : Char} (h : separates s = true)
    (a b : List Char) : parts separates (a ++ s :: b) = parts separates a ++ parts separates b := by
  induction a with
  | nil => simp [parts, h]
  | cons c rest ih =>
    simp only [List.cons_append, parts, ih]
    split
    · rfl
    · rw [addToFirst_append (parts_ne_nil _ _)]

theorem parts_eq_singleton {separates : Char → Bool} {cs : List Char}
    (h : ∀ c ∈ cs, separates c = false) : parts separates cs = [cs] := by
  induction cs with
  | nil => rfl
  | cons c rest ih =>
    have hc := h c List.mem_cons_self
    have hr := ih fun x hx => h x (List.mem_cons_of_mem _ hx)
    simp [parts, hc, hr, addToFirst]

end ContentSync.Text
