import ContentProtection.Bytes

/-!
# UTF-16, little endian

Characters up to U+FFFF take one unit and the others a pair of surrogates. A surrogate that is not part of a pair has no reading.
-/

namespace ContentProtection.Utf16

/-- The units of one character. -/
def unitsOfChar (c : Char) : List Nat :=
  if c.toNat < 0x10000 then [c.toNat]
  else [0xD800 + (c.toNat - 0x10000) / 0x400, 0xDC00 + (c.toNat - 0x10000) % 0x400]

def units (text : List Char) : List Nat := text.flatMap unitsOfChar

/-- Refuses a surrogate outside a pair. -/
def ofUnits? : List Nat → Option (List Char)
  | [] => some []
  | [unit] => if 0xD800 ≤ unit ∧ unit ≤ 0xDFFF then none else some [Char.ofNat unit]
  | unit :: next :: rest =>
    if unit < 0xD800 ∨ 0xDFFF < unit then (ofUnits? (next :: rest)).map (Char.ofNat unit :: ·)
    else if unit ≤ 0xDBFF ∧ 0xDC00 ≤ next ∧ next ≤ 0xDFFF then
      (ofUnits? rest).map (Char.ofNat (0x10000 + (unit - 0xD800) * 0x400 + (next - 0xDC00)) :: ·)
    else none

/-- The units of a byte string; an odd last byte belongs to none. -/
def unitsOfBytes : Bytes → List Nat
  | low :: high :: rest => (low.toNat + 256 * high.toNat) :: unitsOfBytes rest
  | _ => []

def encode (text : List Char) : Bytes := (units text).flatMap (Bytes.ofNatLE 2)

def decode? (bytes : Bytes) : Option (List Char) := ofUnits? (unitsOfBytes bytes)

end ContentProtection.Utf16
