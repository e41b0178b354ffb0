/-!
# Bytes as text

* `decodeLossy` — the text that bytes encode in UTF-8; each part of a character that is cut short,
  and each byte that starts none, becomes the replacement character.
-/

set_option autoImplicit false

namespace ContentSync.Text

/-- How many bytes follow the first byte of a character, and the range of the second. -/
def leading? (b : UInt8) : Option (Nat × UInt8 × UInt8) :=
  if 0xC2 ≤ b ∧ b ≤ 0xDF then some (1, 0x80, 0xBF)
  else if b = 0xE0 then some (2, 0xA0, 0xBF)
  else if b = 0xED then some (2, 0x80, 0x9F)
  else if 0xE1 ≤ b ∧ b ≤ 0xEF then some (2, 0x80, 0xBF)
  else if b = 0xF0 then some (3, 0x90, 0xBF)
  else if 0xF1 ≤ b ∧ b ≤ 0xF3 then some (3, 0x80, 0xBF)
  else if b = 0xF4 then some (3, 0x80, 0x8F)
  else none

/-- The bytes that go on with a character, at most so many, the first of them in a range. -/
def following (needed : Nat) (low high : UInt8) : List UInt8 → List UInt8
  | [] => []
  | b :: rest =>
    if needed = 0 ∨ b < low ∨ high < b then [] else b :: following (needed - 1) 0x80 0xBF rest

def replacement : Char := '\ufffd'

/-- The characters that bytes encode. -/
def decodeLossyChars : List UInt8 → List Char
  | [] => []
  | b :: rest =>
    if b < 0x80 then Char.ofNat b.toNat :: decodeLossyChars rest
    else
      match leading? b with
      | none => replacement :: decodeLossyChars rest
      | some (needed, low, high) =>
        let tail := following needed low high rest
        let first := b.toNat % Nat.pow 2 (6 - needed)
        let c :=
          if tail.length = needed then
            Char.ofNat (tail.foldl (fun n b => 64 * n + b.toNat % 64) first)
          else replacement
        c :: decodeLossyChars (rest.drop tail.length)
  termination_by bytes => bytes.length
  decreasing_by all_goals (simp only [List.length_cons, List.length_drop]; omega)

/-- The text that bytes encode, without the mark of the byte order at its start. -/
def decodeLossy (bytes : List UInt8) : String :=
  match decodeLossyChars bytes with
  | '\ufeff' :: cs => String.ofList cs
  | cs => String.ofList cs

end ContentSync.Text
