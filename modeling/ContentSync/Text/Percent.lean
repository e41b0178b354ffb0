/-!
# Percent encoding

In an address a byte may be written as `%` and two hexadecimal digits.

* `percentDecode` — the bytes of a text; a `%` that no digits follow stands for itself;
* `percentEncode` — a byte as `%` and two upper-case digits;
* `decodeText?` — the text that the bytes encode, `none` when they are not UTF-8.
-/

set_option autoImplicit false

namespace ContentSync.Text

/-- The value of a hexadecimal digit in ASCII. -/
def hexByte? (b : UInt8) : Option Nat :=
  let n := b.toNat
  if 48 ≤ n && n ≤ 57 then some (n - 48)
  else if 97 ≤ n && n ≤ 102 then some (n - 87)
  else if 65 ≤ n && n ≤ 70 then some (n - 55)
  else none

/-- The bytes that a list of bytes stands for. -/
def decodeBytes : List UInt8 → List UInt8
  | [] => []
  | 37 :: a :: b :: rest =>
    match hexByte? a, hexByte? b with
    | some x, some y => UInt8.ofNat (16 * x + y) :: decodeBytes rest
    | _, _ => 37 :: decodeBytes (a :: b :: rest)
  | b :: rest => b :: decodeBytes rest
  termination_by bytes => bytes.length

def utf8Bytes (text : String) : List UInt8 := text.toUTF8.toList

def ofUtf8Bytes? (bytes : List UInt8) : Option String :=
  String.fromUTF8? (ByteArray.mk bytes.toArray)

def percentDecode (text : String) : List UInt8 := decodeBytes (utf8Bytes text)

/-- The text that the percent-encoded bytes encode. -/
def decodeText? (text : String) : Option String := ofUtf8Bytes? (percentDecode text)

/-- An upper-case hexadecimal digit. -/
def upperHexDigit (n : Nat) : Char :=
  if n < 10 then Char.ofNat (48 + n) else Char.ofNat (55 + n)

def percentEncode (b : UInt8) : List Char :=
  ['%', upperHexDigit (b.toNat / 16), upperHexDigit (b.toNat % 16)]

end ContentSync.Text
