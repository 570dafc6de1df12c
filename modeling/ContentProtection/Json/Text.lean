import ContentProtection.Json.Value
import ContentProtection.Text.Utf8

/-!
# JSON strings

What a written string stands for: UTF-8 text with escapes. Escaped surrogates must come in pairs.
-/

namespace ContentProtection.Json

def hexValue (digit : UInt8) : Nat :=
  if isDigit digit then digit.toNat - 48
  else if 97 ≤ digit then digit.toNat - 87
  else digit.toNat - 55

/-- The UTF-16 unit of an escape's four digits. -/
def escapedUnit (a b c d : UInt8) : Nat :=
  ((hexValue a * 16 + hexValue b) * 16 + hexValue c) * 16 + hexValue d

/-- The byte that a simple escape stands for. -/
def simpleEscape (escape : UInt8) : UInt8 :=
  match escape with
  | 98 => 8
  | 102 => 12
  | 110 => 10
  | 114 => 13
  | 116 => 9
  | other => other

/-- The bytes of a written string with its escapes replaced. -/
def unescape? : Bytes → Option Bytes
  | [] => some []
  | 92 :: 117 :: a :: b :: c :: d :: 92 :: 117 :: e :: f :: g :: h :: rest =>
    let first := escapedUnit a b c d
    let second := escapedUnit e f g h
    if 0xD800 ≤ first ∧ first ≤ 0xDBFF then
      if 0xDC00 ≤ second ∧ second ≤ 0xDFFF then
        (unescape? rest).map
          (String.utf8EncodeChar (Char.ofNat (0x10000 + (first - 0xD800) * 0x400 + (second - 0xDC00))) ++ ·)
      else none
    else if 0xDC00 ≤ first ∧ first ≤ 0xDFFF then none
    else (unescape? (92 :: 117 :: e :: f :: g :: h :: rest)).map (String.utf8EncodeChar (Char.ofNat first) ++ ·)
  | 92 :: 117 :: a :: b :: c :: d :: rest =>
    let unit := escapedUnit a b c d
    if 0xD800 ≤ unit ∧ unit ≤ 0xDFFF then none
    else (unescape? rest).map (String.utf8EncodeChar (Char.ofNat unit) ++ ·)
  | 92 :: escape :: rest => (unescape? rest).map (simpleEscape escape :: ·)
  | byte :: rest => (unescape? rest).map (byte :: ·)

def decode? (written : Bytes) : Option (List Char) := (unescape? written).bind Utf8.decode?

end ContentProtection.Json
